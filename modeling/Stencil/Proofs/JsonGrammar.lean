/-
# The grammar of JSON

The texts of JSON, symbol by symbol, with any spaces, escapes, forms of numbers and nesting.

    element  →  spaces value spaces
    value    →  word | number | string | '[' spaces ']' | '[' elements ']' | '{' spaces '}' | …
    elements →  element | element ',' elements
    member   →  spaces string spaces ':' element

* `Json.Produces`: a symbol stands for a text.  A text of JSON is one that an element stands for.
* `produces_of_read?`: whatever the reader accepts is a text of JSON.

The reader refuses some of these texts, which are nested too deep, hold numbers that are too large,
or escapes that are no characters.  What is proved of all texts of the grammar holds without it.
Each part of the reader takes a text of its symbol off the front of the unread text, so there is one
lemma for each of them.
-/
import Stencil.Proofs.JsonText

namespace Stencil.Json

open Stencil.Text

/-! ## 1. The grammar -/

/-- Any number of spaces. -/
def Spaces (cs : List Char) : Prop := ∀ c ∈ cs, isSpace c = true

/-- Digits, at least one. -/
structure IsDigits (ds : List Char) : Prop where
  nonempty : ds ≠ []
  digits : ∀ c ∈ ds, c.isDigit = true

/-- The whole part of a number: digits, of which only a single one may start with zero. -/
structure IsWhole (ds : List Char) : Prop extends IsDigits ds where
  unpadded : ds = ['0'] ∨ ds.head? ≠ some '0'

/-- The fractional part of a number, if there is one. -/
inductive IsFraction : List Char → Prop
  | none : IsFraction []
  | some {ds : List Char} (h : IsDigits ds) : IsFraction ('.' :: ds)

/-- The exponent of a number, if there is one. -/
inductive IsExponent : List Char → Prop
  | none : IsExponent []
  | some {e : Char} (letter : e = 'e' ∨ e = 'E') {sign : List Char}
      (signed : sign = [] ∨ sign = ['+'] ∨ sign = ['-']) {ds : List Char} (h : IsDigits ds) :
      IsExponent (e :: (sign ++ ds))

/-- A number without its sign. -/
inductive IsUnsigned : List Char → Prop
  | mk {whole fraction exponent : List Char} (h : IsWhole whole) (h' : IsFraction fraction)
      (h'' : IsExponent exponent) : IsUnsigned (whole ++ (fraction ++ exponent))

/-- A hexadecimal digit, in lower or upper case. -/
def isHex (c : Char) : Bool := c.isDigit || ('a' ≤ c && c ≤ 'f') || ('A' ≤ c && c ≤ 'F')

/-- The letters and signs that an escape of two characters ends with. -/
def escapes : List Char := ['"', '\\', '/', 'b', 'f', 'n', 'r', 't']

/-- What stands between the quotes of a string. -/
inductive IsBody : List Char → Prop
  | nil : IsBody []
  | plain {c : Char} (noQuote : c ≠ '"') (noBackslash : c ≠ '\\') (printable : 0x20 ≤ c.toNat)
      {cs : List Char} (h : IsBody cs) : IsBody (c :: cs)
  | escape {c : Char} (mem : c ∈ escapes) {cs : List Char} (h : IsBody cs) :
      IsBody ('\\' :: c :: cs)
  | unicode {a b c d : Char} (hex : ∀ x ∈ [a, b, c, d], isHex x = true) {cs : List Char}
      (h : IsBody cs) : IsBody ('\\' :: 'u' :: a :: b :: c :: d :: cs)

/-- The symbols of the grammar. -/
inductive Symbol
  | value
  | element
  | elements
  | member
  | members

/-- The texts that a symbol stands for. -/
inductive Produces : Symbol → List Char → Prop
  | word {cs : List Char} (h : cs ∈ ["null".toList, "true".toList, "false".toList]) :
      Produces .value cs
  | positive {cs : List Char} (h : IsUnsigned cs) : Produces .value cs
  | negative {cs : List Char} (h : IsUnsigned cs) : Produces .value ('-' :: cs)
  | string {cs : List Char} (h : IsBody cs) : Produces .value ('"' :: (cs ++ ['"']))
  | emptyArray {gap : List Char} (spaces : Spaces gap) : Produces .value ('[' :: (gap ++ [']']))
  | array {cs : List Char} (h : Produces .elements cs) : Produces .value ('[' :: (cs ++ [']']))
  | emptyObject {gap : List Char} (spaces : Spaces gap) : Produces .value ('{' :: (gap ++ ['}']))
  | object {cs : List Char} (h : Produces .members cs) : Produces .value ('{' :: (cs ++ ['}']))
  | element {before cs behind : List Char} (spaces : Spaces before) (h : Produces .value cs)
      (spaces' : Spaces behind) : Produces .element (before ++ (cs ++ behind))
  | lastElement {cs : List Char} (h : Produces .element cs) : Produces .elements cs
  | elements {cs rest : List Char} (h : Produces .element cs) (h' : Produces .elements rest) :
      Produces .elements (cs ++ ',' :: rest)
  | member {before key behind cs : List Char} (spaces : Spaces before) (h : IsBody key)
      (spaces' : Spaces behind) (h' : Produces .element cs) :
      Produces .member (before ++ '"' :: (key ++ '"' :: (behind ++ ':' :: cs)))
  | lastMember {cs : List Char} (h : Produces .member cs) : Produces .members cs
  | members {cs rest : List Char} (h : Produces .member cs) (h' : Produces .members rest) :
      Produces .members (cs ++ ',' :: rest)

/-! ## 2. Numbers -/

theorem bind_eq_ok {α β : Type} {x : Except Fault α} {f : α → Except Fault β} {b : β}
    (h : x.bind f = .ok b) : ∃ a, x = .ok a ∧ f a = .ok b := by
  cases x with
  | error fault => cases h
  | ok a => exact ⟨a, rfl, h⟩

theorem exists_spaces (cs : List Char) : ∃ gap, Spaces gap ∧ cs = gap ++ skipSpace cs :=
  ⟨cs.takeWhile isSpace, fun _ mem => List.mem_takeWhile_imp mem,
    List.takeWhile_append_dropWhile.symm⟩

theorem Spaces.append {gap gap' : List Char} (h : Spaces gap) (h' : Spaces gap') :
    Spaces (gap ++ gap') := fun c mem => (List.mem_append.1 mem).elim (h c) (h' c)

theorem spaces_nil : Spaces [] := fun _ no => absurd no List.not_mem_nil

theorem IsDigits.cons {c : Char} (digit : c.isDigit = true) {ds : List Char}
    (digits : ∀ c ∈ ds, c.isDigit = true) : IsDigits (c :: ds) :=
  ⟨List.cons_ne_nil c ds, List.forall_mem_cons.2 ⟨digit, digits⟩⟩

theorem exists_digits (cs : List Char) :
    ∃ ds, (∀ c ∈ ds, c.isDigit = true) ∧ cs = ds ++ cs.dropWhile Char.isDigit :=
  ⟨cs.takeWhile Char.isDigit, fun _ mem => List.mem_takeWhile_imp mem,
    List.takeWhile_append_dropWhile.symm⟩

theorem readSignificand_eq {significand taken : Nat} {cs rest : List Char}
    (h : readSignificand significand cs = (taken, rest)) :
    ∃ ds, (∀ c ∈ ds, c.isDigit = true) ∧ cs = ds ++ rest := by
  induction cs generalizing significand with
  | nil =>
    cases h
    exact ⟨[], fun _ no => absurd no List.not_mem_nil, rfl⟩
  | cons c cs ih =>
    rw [readSignificand] at h
    split at h
    · rename_i fits
      obtain ⟨ds, digits, rfl⟩ := ih h
      have digit : c.isDigit = true := (Bool.and_eq_true _ _ ▸ fits).1
      exact ⟨c :: ds, List.forall_mem_cons.2 ⟨digit, digits⟩, rfl⟩
    · cases h
      exact ⟨[], fun _ no => absurd no List.not_mem_nil, rfl⟩

theorem floatOf_eq_ok {negative : Bool} {significand : Nat} {exponent : Int} {cs rest : List Char}
    {v : Value} (h : floatOf negative significand exponent cs = .ok (v, rest)) : cs = rest := by
  unfold floatOf at h
  split at h
  · cases h
    rfl
  · cases h

theorem readExponentDigits_eq_ok {negative : Bool} {significand : Nat} {start : Int} {below : Bool}
    {exponent : Nat} {cs rest : List Char} {v : Value}
    (h : readExponentDigits negative significand start below exponent cs = .ok (v, rest)) :
    ∃ ds, (∀ c ∈ ds, c.isDigit = true) ∧ cs = ds ++ rest := by
  have nothing : ∀ c ∈ ([] : List Char), c.isDigit = true := fun _ no => absurd no List.not_mem_nil
  induction cs generalizing exponent with
  | nil =>
    rw [readExponentDigits] at h
    exact ⟨[], nothing, floatOf_eq_ok h⟩
  | cons c cs ih =>
    rw [readExponentDigits] at h
    split at h
    · exact ⟨[], nothing, floatOf_eq_ok h⟩
    · rename_i digit
      rw [Bool.not_eq_true, Bool.not_eq_false'] at digit
      split at h
      · split at h
        · cases h
        · cases h
          obtain ⟨ds, digits, whole⟩ := exists_digits cs
          exact ⟨c :: ds, List.forall_mem_cons.2 ⟨digit, digits⟩, congrArg (c :: ·) whole⟩
      · obtain ⟨ds, digits, rfl⟩ := ih h
        exact ⟨c :: ds, List.forall_mem_cons.2 ⟨digit, digits⟩, rfl⟩

theorem readExponent_eq_ok {negative : Bool} {significand : Nat} {start : Int}
    {cs rest : List Char} {v : Value}
    (h : readExponent negative significand start cs = .ok (v, rest)) :
    ∃ sign ds, (sign = [] ∨ sign = ['+'] ∨ sign = ['-']) ∧ IsDigits ds ∧
      cs = sign ++ (ds ++ rest) := by
  unfold readExponent at h
  split at h
  rename_i below behind signed
  have run : ∃ ds, IsDigits ds ∧ behind = ds ++ rest := by
    cases behind with
    | nil => cases h
    | cons c more =>
      simp only at h
      split at h
      · rename_i digit
        obtain ⟨ds, digits, rfl⟩ := readExponentDigits_eq_ok h
        exact ⟨c :: ds, .cons digit digits, rfl⟩
      · cases h
  obtain ⟨ds, digits, rfl⟩ := run
  split at signed
  · cases signed
    exact ⟨['+'], ds, Or.inr (Or.inl rfl), digits, rfl⟩
  · cases signed
    exact ⟨['-'], ds, Or.inr (Or.inr rfl), digits, rfl⟩
  · cases signed
    exact ⟨[], ds, Or.inl rfl, digits, rfl⟩

theorem exists_exponent {negative : Bool} {significand : Nat} {start : Int}
    {cs rest : List Char} {v : Value}
    (h : readExponent negative significand start cs = .ok (v, rest)) {e : Char}
    (letter : e = 'e' ∨ e = 'E') :
    ∃ exponent, IsExponent exponent ∧ e :: cs = exponent ++ rest := by
  obtain ⟨sign, ds, signed, digits, rfl⟩ := readExponent_eq_ok h
  exact ⟨e :: (sign ++ ds), .some letter signed digits, by simp⟩

theorem readAfterDigits_eq_ok {negative : Bool} {significand : Nat} {exponent : Int}
    {cs rest : List Char} {v : Value}
    (h : readAfterDigits negative significand exponent cs = .ok (v, rest)) :
    ∃ text, IsExponent text ∧ cs = text ++ rest := by
  unfold readAfterDigits at h
  split at h
  · exact exists_exponent h (Or.inl rfl)
  · exact exists_exponent h (Or.inr rfl)
  · exact ⟨[], .none, floatOf_eq_ok h⟩

theorem readFraction_eq_ok {negative : Bool} {significand : Nat} {exponent : Int}
    {cs rest : List Char} {v : Value}
    (h : readFraction negative significand exponent cs = .ok (v, rest)) :
    ∃ ds text, IsDigits ds ∧ IsExponent text ∧ cs = ds ++ (text ++ rest) := by
  unfold readFraction at h
  split at h
  · cases h
  · rename_i c more
    split at h
    · cases h
    · rename_i digit
      rw [Bool.not_eq_true, Bool.not_eq_false'] at digit
      generalize taken : readSignificand significand (c :: more) = read at h
      obtain ⟨significand', behind⟩ := read
      obtain ⟨ds, digits, whole⟩ := readSignificand_eq taken
      obtain ⟨ds', digits', whole'⟩ := exists_digits behind
      obtain ⟨text, exponent, eq⟩ := readAfterDigits_eq_ok h
      have all : c :: more = (ds ++ ds') ++ (text ++ rest) := by
        rw [whole, whole', ← eq, List.append_assoc]
      refine ⟨ds ++ ds', text, ⟨?_, fun d mem => ?_⟩, exponent, all⟩
      · intro none
        rw [none, List.nil_append, ← eq] at all
        have starts := List.head?_dropWhile_not Char.isDigit behind
        rw [← all] at starts
        simp [digit] at starts
      · exact (List.mem_append.1 mem).elim (digits d) (digits' d)

/-- What may follow the whole part of a number. -/
theorem afterWhole_eq_ok {negative : Bool} {significand : Nat} {cs rest : List Char} {v : Value}
    (h : readNumber.afterWhole negative significand cs = .ok (v, rest)) :
    ∃ fraction exponent, IsFraction fraction ∧ IsExponent exponent ∧
      cs = fraction ++ (exponent ++ rest) := by
  unfold readNumber.afterWhole at h
  split at h
  · obtain ⟨ds, text, digits, exponent, rfl⟩ := readFraction_eq_ok h
    exact ⟨'.' :: ds, text, .some digits, exponent, rfl⟩
  · obtain ⟨text, exponent, eq⟩ := exists_exponent h (Or.inl rfl)
    exact ⟨[], text, .none, exponent, eq⟩
  · obtain ⟨text, exponent, eq⟩ := exists_exponent h (Or.inr rfl)
    exact ⟨[], text, .none, exponent, eq⟩
  · refine ⟨[], [], .none, .none, ?_⟩
    split at h
    · cases h
      rfl
    · split at h <;> cases h <;> rfl

theorem afterDropped_eq_ok {negative : Bool} {significand dropped : Nat} {cs rest : List Char}
    {v : Value} (h : readNumber.afterDropped negative significand dropped cs = .ok (v, rest)) :
    ∃ fraction exponent, IsFraction fraction ∧ IsExponent exponent ∧
      cs = fraction ++ (exponent ++ rest) := by
  unfold readNumber.afterDropped at h
  split at h
  · obtain ⟨ds, text, digits, exponent, rfl⟩ := readFraction_eq_ok h
    exact ⟨'.' :: ds, text, .some digits, exponent, rfl⟩
  · obtain ⟨text, exponent, eq⟩ := readAfterDigits_eq_ok h
    exact ⟨[], text, .none, exponent, eq⟩

/-- **A number is read off the front of a text.** -/
theorem readNumber_eq_ok {negative : Bool} {cs rest : List Char} {v : Value}
    (h : readNumber negative cs = .ok (v, rest)) : ∃ text, IsUnsigned text ∧ cs = text ++ rest := by
  unfold readNumber at h
  split at h
  · cases h
  · rename_i c more
    split at h
    · cases h
    · obtain ⟨fraction, exponent, h', h'', eq⟩ := afterWhole_eq_ok h
      have zero : IsWhole ['0'] := ⟨.cons rfl fun _ no => absurd no List.not_mem_nil, Or.inl rfl⟩
      exact ⟨_, .mk zero h' h'', by rw [eq]; simp⟩
  · rename_i c more noZero
    split at h
    · cases h
    · rename_i digit
      rw [Bool.not_eq_true, Bool.not_eq_false'] at digit
      generalize taken : readSignificand (digitValue c) more = read at h
      obtain ⟨significand, behind⟩ := read
      obtain ⟨ds, digits, whole⟩ := readSignificand_eq taken
      obtain ⟨ds', digits', whole'⟩ := exists_digits behind
      have tail : ∃ fraction exponent, IsFraction fraction ∧ IsExponent exponent ∧
          behind.dropWhile Char.isDigit = fraction ++ (exponent ++ rest) := by
        simp only at h
        split at h
        · rename_i none
          have taken := List.takeWhile_append_dropWhile (p := Char.isDigit) (l := behind)
          rw [List.isEmpty_iff.1 none, List.nil_append] at taken
          rw [taken]
          exact afterWhole_eq_ok h
        · exact afterDropped_eq_ok h
      obtain ⟨fraction, exponent, h', h'', eq⟩ := tail
      have alone : c = '0' → more = [] := by
        rintro rfl
        cases more with
        | nil => rfl
        | cons d more => exact (noZero d more rfl rfl).elim
      have unpadded : IsWhole (c :: (ds ++ ds')) := by
        refine ⟨.cons digit fun d mem => (List.mem_append.1 mem).elim (digits d) (digits' d), ?_⟩
        by_cases zero : c = '0'
        · have none := alone zero
          rw [whole, whole', List.append_eq_nil_iff, List.append_eq_nil_iff] at none
          rw [zero, none.1, none.2.1]
          exact Or.inl rfl
        · exact Or.inr fun first => zero (Option.some.inj first)
      refine ⟨_, .mk unpadded h' h'', ?_⟩
      rw [whole, whole', eq]
      simp

/-! ## 3. Strings -/

theorem isHex_of_hexValue? {c : Char} {n : Nat} (h : hexValue? c = some n) : isHex c = true := by
  unfold hexValue? at h
  unfold isHex
  split at h
  · simp_all
  · split at h
    · simp_all
    · split at h
      · simp_all
      · cases h

theorem readHex_eq_ok {cs rest : List Char} {n : Nat} (h : readHex cs = .ok (n, rest)) :
    ∃ a b c d, (∀ x ∈ [a, b, c, d], isHex x = true) ∧ cs = a :: b :: c :: d :: rest := by
  unfold readHex at h
  split at h
  · cases h
  · split at h
    · rename_i a b c d more _
      split at h
      · rename_i first second third fourth
        cases h
        refine ⟨a, b, c, d, ?_, rfl⟩
        simp [isHex_of_hexValue? first, isHex_of_hexValue? second, isHex_of_hexValue? third,
          isHex_of_hexValue? fourth]
      · cases h
    · cases h

/-- What is read behind the start of an escape makes it part of a string. -/
def Completes (start text : List Char) : Prop :=
  ∀ body, IsBody body → IsBody (start ++ (text ++ body))

theorem readUnicode_eq_ok {cs rest : List Char} {c : Char} (h : readUnicode cs = .ok (c, rest)) :
    ∃ text, Completes ['\\', 'u'] text ∧ cs = text ++ rest := by
  obtain ⟨⟨high, behind⟩, first, read⟩ := bind_eq_ok h
  obtain ⟨a, b, c, d, hex, rfl⟩ := readHex_eq_ok first
  simp only at read
  split at read
  · cases read
  · split at read
    · obtain ⟨-, rfl⟩ := Prod.mk.inj (Except.ok.inj read)
      exact ⟨[a, b, c, d], fun body h => .unicode hex h, rfl⟩
    · split at read
      · cases read
      · cases read
      · obtain ⟨⟨low, behind⟩, second, pair⟩ := bind_eq_ok read
        obtain ⟨a', b', c', d', hex', rfl⟩ := readHex_eq_ok second
        simp only at pair
        split at pair
        · cases pair
        · obtain ⟨-, rfl⟩ := Prod.mk.inj (Except.ok.inj pair)
          exact ⟨[a, b, c, d, '\\', 'u', a', b', c', d'],
            fun body h => .unicode hex (.unicode hex' h), rfl⟩
      · cases read
      · cases read

theorem readEscape_eq_ok {cs rest : List Char} {c : Char} (h : readEscape cs = .ok (c, rest)) :
    ∃ text, Completes ['\\'] text ∧ cs = text ++ rest := by
  unfold readEscape at h
  split at h
  case h_1 => cases h
  case h_10 =>
    obtain ⟨text, completes, rfl⟩ := readUnicode_eq_ok h
    exact ⟨'u' :: text, completes, rfl⟩
  case h_11 => cases h
  all_goals
    cases h
    exact ⟨[_], fun body h => .escape (by decide) h, rfl⟩

/-- **A string is read off the front of a text**, up to its closing quote. -/
theorem readStringFrom_eq_ok {steps : Nat} {passed cs rest : List Char} {s : String}
    (h : readStringFrom steps passed cs = .ok (s, rest)) :
    ∃ body, IsBody body ∧ cs = body ++ '"' :: rest := by
  induction steps generalizing passed cs with
  | zero => cases h
  | succ steps ih =>
    cases cs with
    | nil => cases h
    | cons c cs =>
      rw [readStringFrom] at h
      split at h
      · rename_i quote
        cases h
        rw [beq_iff_eq] at quote
        exact ⟨[], .nil, by rw [quote]; rfl⟩
      · split at h
        · rename_i backslash
          rw [beq_iff_eq] at backslash
          obtain ⟨⟨d, behind⟩, escaped, others⟩ := bind_eq_ok h
          obtain ⟨text, completes, rfl⟩ := readEscape_eq_ok escaped
          obtain ⟨body, isBody, rfl⟩ := ih others
          exact ⟨_, completes body isBody, by rw [backslash]; simp⟩
        · split at h
          · cases h
          · rename_i noQuote noBackslash printable
            obtain ⟨body, isBody, rfl⟩ := ih h
            simp only [beq_iff_eq] at noQuote noBackslash
            exact ⟨c :: body, .plain noQuote noBackslash (Nat.not_lt.1 printable) isBody, rfl⟩

/-! ## 4. Lists and objects

What a reader of items promises: it takes spaces and a value off the front of the unread text. -/

/-- A reader of values takes a text of the grammar. -/
def Sound (item : Reader Value) : Prop := ∀ ⦃cs rest v⦄, item cs = .ok (v, rest) →
  ∃ gap text, Spaces gap ∧ Produces .value text ∧ cs = gap ++ (text ++ rest)

/-- The rest of a list, behind any item. -/
theorem readItems_eq_ok {item : Reader Value} (sound : Sound item) {steps : Nat}
    {items : List Value} {cs rest : List Char} {v : Value}
    (h : readItems item steps items cs = .ok (v, rest)) :
    ∃ text, cs = text ++ ']' :: rest ∧ ∀ before value, Spaces before → Produces .value value →
      Produces .elements (before ++ (value ++ text)) := by
  induction steps generalizing items cs with
  | zero => cases h
  | succ steps ih =>
    obtain ⟨gap, spaces, whole⟩ := exists_spaces cs
    rw [readItems] at h
    split at h
    · cases h
    · rename_i closed
      cases h
      exact ⟨gap, by rw [whole, closed], fun before value spaces' produces =>
        .lastElement (.element spaces' produces spaces)⟩
    · rename_i more comma
      obtain ⟨gap', spaces', whole'⟩ := exists_spaces more
      split at h
      · cases h
      · cases h
      · obtain ⟨⟨w, behind⟩, here, h⟩ := bind_eq_ok h
        obtain ⟨gap'', text, spaces'', produces, eq⟩ := sound here
        obtain ⟨others, rfl, elements⟩ := ih h
        refine ⟨gap ++ ',' :: ((gap' ++ gap'') ++ (text ++ others)), ?_, ?_⟩
        · rw [whole, comma, whole', eq]
          simp
        · intro before value spaces''' produces'
          have next := elements (gap' ++ gap'') text (spaces'.append spaces'') produces
          have first : Produces .element (before ++ (value ++ gap)) :=
            .element spaces''' produces' spaces
          simpa using Produces.elements first next
    · cases h

/-- A list behind its bracket. -/
theorem readList_eq_ok {item : Reader Value} (sound : Sound item) {cs rest : List Char}
    {v : Value} (h : readList item cs = .ok (v, rest)) :
    ∃ text, Produces .value ('[' :: (text ++ [']'])) ∧ cs = text ++ ']' :: rest := by
  obtain ⟨gap, spaces, whole⟩ := exists_spaces cs
  unfold readList at h
  split at h
  · cases h
  · rename_i closed
    cases h
    exact ⟨gap, .emptyArray spaces, by rw [whole, closed]⟩
  · obtain ⟨⟨w, behind⟩, here, h⟩ := bind_eq_ok h
    obtain ⟨gap', text, spaces', produces, eq⟩ := sound here
    obtain ⟨others, rfl, elements⟩ := readItems_eq_ok sound h
    refine ⟨_, .array (elements (gap ++ gap') text (spaces.append spaces') produces), ?_⟩
    rw [whole, eq]
    simp

/-- A member of an object behind the opening quote of its key. -/
theorem readMember_eq_ok {item : Reader Value} (sound : Sound item) {cs rest : List Char}
    {m : String × Value} (h : readMember item cs = .ok (m, rest)) :
    ∃ text, cs = text ++ rest ∧ ∀ before behind, Spaces before → Spaces behind →
      Produces .member (before ++ '"' :: (text ++ behind)) := by
  obtain ⟨⟨key, more⟩, name, member⟩ := bind_eq_ok h
  obtain ⟨body, isBody, rfl⟩ := readStringFrom_eq_ok name
  obtain ⟨gap, spaces, whole⟩ := exists_spaces more
  simp only at member
  split at member
  · rename_i value colon
    obtain ⟨⟨v, others⟩, here, last⟩ := bind_eq_ok member
    obtain ⟨-, rfl⟩ := Prod.mk.inj (Except.ok.inj last)
    obtain ⟨gap', text, spaces', produces, rfl⟩ := sound here
    refine ⟨body ++ '"' :: (gap ++ ':' :: (gap' ++ text)), by rw [whole, colon]; simp, ?_⟩
    intro before behind spaces'' spaces'''
    have element : Produces .element (gap' ++ (text ++ behind)) :=
      .element spaces' produces spaces'''
    simpa using Produces.member spaces'' isBody spaces element
  · cases member
  · cases member

/-- The rest of an object, behind any member. -/
theorem readMembers_eq_ok {item : Reader Value} (sound : Sound item) {steps : Nat}
    {fields : Fields} {cs rest : List Char} {v : Value}
    (h : readMembers item steps fields cs = .ok (v, rest)) :
    ∃ text, cs = text ++ '}' :: rest ∧ ∀ member,
      (∀ behind, Spaces behind → Produces .member (member ++ behind)) →
      Produces .members (member ++ text) := by
  induction steps generalizing fields cs with
  | zero => cases h
  | succ steps ih =>
    obtain ⟨gap, spaces, whole⟩ := exists_spaces cs
    rw [readMembers] at h
    split at h
    · cases h
    · rename_i closed
      cases h
      exact ⟨gap, by rw [whole, closed], fun member produces => .lastMember (produces gap spaces)⟩
    · rename_i more comma
      obtain ⟨gap', spaces', whole'⟩ := exists_spaces more
      split at h
      · cases h
      · rename_i quoted quote
        obtain ⟨⟨m, behind⟩, here, run⟩ := bind_eq_ok h
        obtain ⟨text, eq, produces⟩ := readMember_eq_ok sound here
        obtain ⟨others, rest', members⟩ := ih run
        refine ⟨gap ++ ',' :: (gap' ++ '"' :: (text ++ others)), ?_, ?_⟩
        · rw [whole, comma, whole', quote, eq, rest']
          simp
        · intro member produces'
          have next := members (gap' ++ '"' :: text) fun behind spaces'' => by
            simpa using produces gap' behind spaces' spaces''
          simpa using Produces.members (produces' gap spaces) next
      · cases h
      · cases h
    · cases h

/-- An object behind its brace. -/
theorem readObject_eq_ok {item : Reader Value} (sound : Sound item) {cs rest : List Char}
    {v : Value} (h : readObject item cs = .ok (v, rest)) :
    ∃ text, Produces .value ('{' :: (text ++ ['}'])) ∧ cs = text ++ '}' :: rest := by
  obtain ⟨gap, spaces, whole⟩ := exists_spaces cs
  unfold readObject at h
  split at h
  · cases h
  · rename_i closed
    cases h
    exact ⟨gap, .emptyObject spaces, by rw [whole, closed]⟩
  · rename_i quoted quote
    obtain ⟨⟨m, behind⟩, here, run⟩ := bind_eq_ok h
    obtain ⟨text, eq, produces⟩ := readMember_eq_ok sound here
    obtain ⟨others, rest', members⟩ := readMembers_eq_ok sound run
    have produces' := members (gap ++ '"' :: text) fun behind spaces' => by
      simpa using produces gap behind spaces spaces'
    refine ⟨_, .object produces', ?_⟩
    rw [whole, quote, eq, rest']
    simp
  · cases h

/-! ## 5. Values -/

theorem readWord_eq_ok {v w : Value} {word cs rest : List Char}
    (h : readWord v word cs = .ok (w, rest)) : cs = word ++ rest := by
  induction word generalizing cs with
  | nil =>
    cases h
    rfl
  | cons c word ih =>
    cases cs with
    | nil => cases h
    | cons d cs =>
      rw [readWord] at h
      split at h
      · rename_i same
        rw [beq_iff_eq.1 same, ih h, List.cons_append]
      · cases h

/-- A value is one of the grammar if the values that it holds are. -/
theorem sound_of_below {depth : Nat} (below : ∀ d, depth = d + 1 → Sound (readValue d)) :
    Sound (readValue depth) := by
  intro cs rest v h
  obtain ⟨gap, spaces, whole⟩ := exists_spaces cs
  have read : ∃ text, Produces .value text ∧ skipSpace cs = text ++ rest := by
    unfold readValue at h
    split at h
    · cases h
    · rename_i more quote
      obtain ⟨⟨s, behind⟩, body, last⟩ := bind_eq_ok h
      obtain ⟨-, rfl⟩ := Prod.mk.inj (Except.ok.inj last)
      obtain ⟨text, isBody, rfl⟩ := readStringFrom_eq_ok body
      exact ⟨_, .string isBody, by rw [quote]; simp⟩
    · rename_i more bracket
      split at h
      · cases h
      · obtain ⟨text, produces, rfl⟩ := readList_eq_ok (below _ rfl) h
        exact ⟨_, produces, by rw [bracket]; simp⟩
    · rename_i more brace
      split at h
      · cases h
      · obtain ⟨text, produces, rfl⟩ := readObject_eq_ok (below _ rfl) h
        exact ⟨_, produces, by rw [brace]; simp⟩
    · rename_i more first
      exact ⟨"null".toList, .word (by simp), by rw [first, readWord_eq_ok h]; rfl⟩
    · rename_i more first
      exact ⟨"true".toList, .word (by simp), by rw [first, readWord_eq_ok h]; rfl⟩
    · rename_i more first
      exact ⟨"false".toList, .word (by simp), by rw [first, readWord_eq_ok h]; rfl⟩
    · rename_i more minus
      obtain ⟨text, unsigned, rfl⟩ := readNumber_eq_ok h
      exact ⟨_, .negative unsigned, by rw [minus]; rfl⟩
    · rename_i c more first
      split at h
      · obtain ⟨text, unsigned, eq⟩ := readNumber_eq_ok h
        exact ⟨text, .positive unsigned, by rw [first, eq]⟩
      · cases h
  obtain ⟨text, produces, eq⟩ := read
  exact ⟨gap, text, spaces, produces, by rw [whole, eq]⟩

/-- **The reader takes a text of the grammar**, at any depth. -/
theorem sound_readValue (depth : Nat) : Sound (readValue depth) := by
  induction depth with
  | zero => exact sound_of_below fun d no => absurd no (Nat.succ_ne_zero d).symm
  | succ depth ih => exact sound_of_below fun d same => Nat.succ.inj same ▸ ih

/-- **Whatever the reader accepts is a text of JSON.** -/
theorem produces_of_read? {cs : List Char} (h : (read? cs).isSome = true) :
    Produces .element cs := by
  unfold read? read at h
  cases first : readValue depthLimit cs with
  | error fault => simp [first, bind, Except.bind, Except.toOption] at h
  | ok taken =>
    obtain ⟨v, rest⟩ := taken
    obtain ⟨before, text, spaces, produces, rfl⟩ := sound_readValue depthLimit first
    obtain ⟨behind, spaces', whole⟩ := exists_spaces rest
    simp only [first, bind, Except.bind] at h
    split at h
    · rename_i none
      rw [none, List.append_nil] at whole
      exact whole ▸ .element spaces produces spaces'
    · simp [Except.toOption] at h

end Stencil.Json
