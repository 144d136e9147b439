/-
# Literals in the relaxed form

The form in which people write lists and objects: keys that are identifiers stand bare, strings and
other keys in single quotes, and in these a double quote stands as it is and a single one behind a
backslash.  Everything else is as in the compact JSON text.

    {"unit":"it's","max value":[1,true]}
    {unit:'it\'s','max value':[1,true]}

* `toStrict_relaxed`: the strict form of such a text is the JSON text, character for character;
* `only_readValue`: as JSON, which it is read as first, it gives nothing but the value, if anything;
* `readList_relaxed`: as the only slot of a list both texts give the value.

A relaxed text is rewritten in front of what may follow a value: a comma, a closing bracket, or the
end (`Ends`).  There no word is a key and no numeral goes on.
-/
import Stencil.Proofs.ArgumentList

namespace Stencil

open Stencil.Text Stencil.Depth

namespace Literal

/-! ## 1. The relaxed text of a value -/

/-- A character that an identifier starts with. -/
def startsIdentifier (c : Char) : Bool := c.isAlpha || c == '_' || c == '$'

/-- A character that an identifier goes on with. -/
def inIdentifier (c : Char) : Bool := c.isAlphanum || c == '_' || c == '$'

def isIdentifier : List Char → Bool
  | [] => false
  | c :: cs => startsIdentifier c && cs.all inIdentifier

/-- One character between single quotes. -/
def relaxedEscape (c : Char) : List Char :=
  if c = '"' then ['"'] else if c = '\'' then ['\\', '\''] else Json.escape c

/-- A string in single quotes. -/
def relaxedString (s : String) : List Char := '\'' :: s.toList.flatMap relaxedEscape ++ ['\'']

/-- A key, bare if it can be. -/
def relaxedKey (key : String) : List Char :=
  if isIdentifier key.toList then key.toList else relaxedString key

mutual

/-- The relaxed text of a value. -/
def relaxed : Value → List Char
  | .string s => relaxedString s
  | .array items => '[' :: relaxedItems items ++ [']']
  | .object fields => '{' :: relaxedFields fields ++ ['}']
  | v => Json.text v

/-- The items of a list, separated by commas. -/
def relaxedItems : List Value → List Char
  | [] => []
  | [v] => relaxed v
  | v :: rest => relaxed v ++ ',' :: relaxedItems rest

/-- The members of an object, separated by commas. -/
def relaxedFields : List (String × Value) → List Char
  | [] => []
  | [(k, v)] => relaxedKey k ++ ':' :: relaxed v
  | (k, v) :: rest => relaxedKey k ++ ':' :: (relaxed v ++ ',' :: relaxedFields rest)

end

/-- The relaxed text of a member. -/
def relaxedMember (m : String × Value) : List Char := relaxedKey m.1 ++ ':' :: relaxed m.2

theorem relaxedItems_cons (v : Value) (items : List Value) :
    relaxedItems (v :: items) = relaxed v ++ items.flatMap fun w => ',' :: relaxed w := by
  induction items generalizing v with
  | nil => simp [relaxedItems]
  | cons w items ih => simp [relaxedItems, ih w]

theorem relaxedFields_cons (m : String × Value) (fields : Fields) :
    relaxedFields (m :: fields) =
      relaxedMember m ++ fields.flatMap fun m => ',' :: relaxedMember m := by
  induction fields generalizing m with
  | nil =>
    obtain ⟨k, v⟩ := m
    simp [relaxedFields, relaxedMember]
  | cons m' fields ih =>
    obtain ⟨k, v⟩ := m
    have first : relaxedFields ((k, v) :: m' :: fields) =
        relaxedMember (k, v) ++ ',' :: relaxedFields (m' :: fields) := by
      simp [relaxedFields, relaxedMember]
    rw [first, ih m', List.flatMap_cons, List.cons_append]

/-! ## 2. Identifiers -/

theorem inIdentifier_of_startsIdentifier {c : Char} (h : startsIdentifier c = true) :
    inIdentifier c = true := by
  simp only [startsIdentifier, inIdentifier, Char.isAlphanum, Bool.or_eq_true] at h ⊢
  tauto

theorem isIdentifier_cons {c : Char} {cs : List Char} (h : isIdentifier (c :: cs) = true) :
    startsIdentifier c = true ∧ ∀ d ∈ cs, inIdentifier d = true := by
  simpa [isIdentifier] using h

theorem toNat_of_isAlpha {c : Char} (h : c.isAlpha = true) :
    (65 ≤ c.toNat ∧ c.toNat ≤ 90) ∨ (97 ≤ c.toNat ∧ c.toNat ≤ 122) := by
  simpa [Char.isAlpha, Char.isUpper, Char.isLower, UInt32.le_iff_toNat_le] using h

theorem toNat_of_isDigit {c : Char} (h : c.isDigit = true) : 48 ≤ c.toNat ∧ c.toNat ≤ 57 := by
  simpa [Char.isDigit, UInt32.le_iff_toNat_le] using h

theorem covers_behind {first last n : Nat} (filled : first ≤ last) (behind : last < n)
    (rest : Ranges) : Ranges.covers ((first, last) :: rest) n = Ranges.covers rest n := by
  rw [Ranges.covers, if_neg (by omega), decide_eq_false (by omega), Bool.false_or]

theorem covers_before {first last n : Nat} (before : n < first) (rest : Ranges) :
    Ranges.covers ((first, last) :: rest) n = false := by
  rw [Ranges.covers, if_pos before]

/-- An ASCII letter is a letter. -/
theorem isAlphabetic_of_isAlpha {c : Char} (h : c.isAlpha = true) : isAlphabetic c = true := by
  unfold isAlphabetic alphabeticRanges
  rcases toNat_of_isAlpha h with ⟨low, high⟩ | ⟨low, high⟩
  · exact covers_first low high _
  · rw [covers_behind (by decide) (by omega), covers_first low high]

/-- The ASCII characters beside the letters and the digits are neither letters nor numerals. -/
theorem isAlphanumeric_of_between {c : Char} (h : c.toNat < 48 ∨ (57 < c.toNat ∧ c.toNat < 65) ∨
    (90 < c.toNat ∧ c.toNat < 97) ∨ (122 < c.toNat ∧ c.toNat < 170)) :
    isAlphanumeric c = false := by
  have noLetter : isAlphabetic c = false := by
    unfold isAlphabetic alphabeticRanges
    by_cases capital : c.toNat < 65
    · exact covers_before capital _
    by_cases small : c.toNat < 97
    · rw [covers_behind (by decide) (by omega), covers_before small]
    · rw [covers_behind (by decide) (by omega), covers_behind (by decide) (by omega),
        covers_before (by omega)]
  have noNumeral : Ranges.covers numericRanges c.toNat = false := by
    unfold numericRanges
    by_cases digit : c.toNat < 48
    · exact covers_before digit _
    · rw [covers_behind (by decide) (by omega), covers_before (by omega)]
  rw [isAlphanumeric, noLetter, noNumeral]
  rfl

theorem startsWord_of_startsIdentifier {c : Char} (h : startsIdentifier c = true) :
    startsWord c = true := by
  simp only [startsIdentifier, startsWord, Bool.or_eq_true] at h ⊢
  rcases h with (letter | underscore) | dollar
  · exact Or.inl (Or.inl (isAlphabetic_of_isAlpha letter))
  · exact Or.inl (Or.inr underscore)
  · exact Or.inr dollar

theorem inWord_of_inIdentifier {c : Char} (h : inIdentifier c = true) : inWord c = true := by
  simp only [inIdentifier, inWord, Char.isAlphanum, isAlphanumeric, Bool.or_eq_true] at h ⊢
  rcases h with ((letter | digit) | underscore) | dollar
  · exact Or.inl (Or.inl (Or.inl (isAlphabetic_of_isAlpha letter)))
  · obtain ⟨low, high⟩ := toNat_of_isDigit digit
    exact Or.inl (Or.inl (Or.inr (covers_first low high _)))
  · exact Or.inl (Or.inr underscore)
  · exact Or.inr dollar

/-- Nothing in an identifier is escaped. -/
theorem escape_of_inIdentifier {c : Char} (h : inIdentifier c = true) : Json.escape c = [c] := by
  have other : ∀ d, inIdentifier d = false → c ≠ d := fun d => ne_of_class h
  have printable : ¬ c.toNat < 0x20 := by
    intro control
    have small : ∀ n < 0x20, inIdentifier (Char.ofNat n) = false := by decide
    have back := small c.toNat control
    rw [Char.ofNat_toNat, h] at back
    cases back
  unfold Json.escape
  split
  · exact absurd rfl (other '"' (by decide))
  · exact absurd rfl (other '\\' (by decide))
  · exact absurd rfl (other '\x08' (by decide))
  · exact absurd rfl (other '\x0c' (by decide))
  · exact absurd rfl (other '\n' (by decide))
  · exact absurd rfl (other '\r' (by decide))
  · exact absurd rfl (other '\t' (by decide))
  · rw [if_neg printable]

theorem flatMap_escape_of_inIdentifier {cs : List Char} (h : ∀ c ∈ cs, inIdentifier c = true) :
    cs.flatMap Json.escape = cs := by
  induction cs with
  | nil => rfl
  | cons c cs ih =>
    obtain ⟨first, others⟩ := List.forall_mem_cons.1 h
    rw [List.flatMap_cons, escape_of_inIdentifier first, ih others, List.singleton_append]

/-! ## 3. One step of the rewriting -/

/-- The characters that stand between the strings, numerals and words of a literal. -/
def isPunctuation (c : Char) : Bool :=
  c == '[' || c == ']' || c == '{' || c == '}' || c == ',' || c == ':'

theorem isPunctuation_iff {c : Char} : isPunctuation c = true ↔
    ((((c = '[' ∨ c = ']') ∨ c = '{') ∨ c = '}') ∨ c = ',') ∨ c = ':' := by
  simp [isPunctuation]

theorem inWord_of_isPunctuation {c : Char} (h : isPunctuation c = true) : inWord c = false := by
  have noLetter : isAlphanumeric c = false := by
    refine isAlphanumeric_of_between ?_
    rcases isPunctuation_iff.1 h with ((((rfl | rfl) | rfl) | rfl) | rfl) | rfl <;> decide
  have other : ∀ d, isPunctuation d = false → c ≠ d := fun d => ne_of_class h
  simp [inWord, noLetter, other '_' (by decide), other '$' (by decide)]

theorem startsWord_of_isPunctuation {c : Char} (h : isPunctuation c = true) :
    startsWord c = false := by
  have := inWord_of_isPunctuation h
  simp only [inWord, isAlphanumeric, Bool.or_eq_false_iff] at this
  simp [startsWord, this]

/-- A character that starts no string, numeral or word stays. -/
theorem toStrict_other {c : Char} (noQuote : (c == '\'' || c == '"') = false)
    (noNumeral : startsNumeral c = false) (noWord : startsWord c = false) (cs : List Char) :
    toStrict (c :: cs) = c :: toStrict cs := by
  rw [toStrict, noQuote, noNumeral, noWord]
  simp

theorem toStrict_punctuation {c : Char} (h : isPunctuation c = true) (cs : List Char) :
    toStrict (c :: cs) = c :: toStrict cs := by
  have plain : (c == '\'' || c == '"') = false ∧ startsNumeral c = false := by
    rcases isPunctuation_iff.1 h with ((((rfl | rfl) | rfl) | rfl) | rfl) | rfl <;> decide
  exact toStrict_other plain.1 plain.2 (startsWord_of_isPunctuation h) cs

/-- What may follow a value: a comma, a closing bracket, or the end. -/
def Ends (rest : List Char) : Prop := ∀ c ∈ rest.head?, c = ',' ∨ c = ']' ∨ c = '}'

theorem Ends.stops {rest : List Char} (h : Ends rest) {p : Char → Bool}
    (comma : p ',' = false) (square : p ']' = false) (brace : p '}' = false) : Stops p rest := by
  intro c first
  rcases h c first with rfl | rfl | rfl
  · exact comma
  · exact square
  · exact brace

theorem ends_nil : Ends [] := by simp [Ends]

theorem ends_comma (rest : List Char) : Ends (',' :: rest) := by simp [Ends]

theorem ends_square (rest : List Char) : Ends (']' :: rest) := by simp [Ends]

theorem ends_brace (rest : List Char) : Ends ('}' :: rest) := by simp [Ends]

/-- A run of items ends each of them. -/
theorem ends_run {α : Type} (print : α → List Char) (items : List α) {rest : List Char}
    (ends : Ends rest) : Ends ((items.flatMap fun a => ',' :: print a) ++ rest) := by
  cases items with
  | nil => exact ends
  | cons a items => exact ends_comma _

theorem stringBody_plain {quote c : Char} (noBackslash : c ≠ '\\') (noQuote : c ≠ quote)
    (noDouble : c ≠ '"') (rest : List Char) : stringBody quote (c :: rest) =
      (c :: (stringBody quote rest).1, (stringBody quote rest).2) := by
  rw [stringBody]
  · simp [noQuote, noDouble]
  · simp [noBackslash]

theorem hexDigit_plain : ∀ n < 16,
    Json.hexDigit n ≠ '\\' ∧ Json.hexDigit n ≠ '\'' ∧ Json.hexDigit n ≠ '"' := by
  decide

/-- **What a character is written as in single quotes becomes what it is in JSON.** -/
theorem stringBody_relaxedEscape (c : Char) (rest : List Char) :
    stringBody '\'' (relaxedEscape c ++ rest) =
      (Json.escape c ++ (stringBody '\'' rest).1, (stringBody '\'' rest).2) := by
  by_cases double : c = '"'
  · rw [double]
    rfl
  by_cases single : c = '\''
  · rw [single]
    rfl
  rw [relaxedEscape, if_neg double, if_neg single]
  unfold Json.escape
  split
  case h_8 noQuote noBackslash _ _ _ _ _ =>
    split
    · rename_i control
      have bound : c.toNat < 32 := control
      obtain ⟨high, high', high''⟩ := hexDigit_plain (c.toNat / 16) (by omega)
      obtain ⟨low, low', low''⟩ := hexDigit_plain (c.toNat % 16) (by omega)
      have digits : ∀ more, stringBody '\'' ('\\' :: 'u' :: '0' :: '0' :: more) =
          ('\\' :: 'u' :: '0' :: '0' :: (stringBody '\'' more).1, (stringBody '\'' more).2) :=
        fun more => rfl
      simp only [List.cons_append, List.nil_append, digits, stringBody_plain high high' high'',
        stringBody_plain low low' low'']
    · exact stringBody_plain noBackslash single double rest
  all_goals rfl

/-- A string in single quotes becomes one in double quotes. -/
theorem stringBody_flatMap (cs rest : List Char) :
    stringBody '\'' (cs.flatMap relaxedEscape ++ '\'' :: rest) =
      (cs.flatMap Json.escape, rest) := by
  induction cs with
  | nil => simp [stringBody]
  | cons c cs ih =>
    rw [List.flatMap_cons, List.append_assoc, stringBody_relaxedEscape, ih, List.flatMap_cons]

theorem toStrict_string (s : String) (rest : List Char) :
    toStrict (relaxedString s ++ rest) = Json.stringText s ++ toStrict rest := by
  have whole : relaxedString s ++ rest =
      '\'' :: (s.toList.flatMap relaxedEscape ++ '\'' :: rest) := by
    simp [relaxedString]
  rw [whole, toStrict, stringBody_flatMap]
  simp [Json.stringText]

/-- A numeral stays. -/
theorem toStrict_numeral {c : Char} {cs rest : List Char} (starts : startsNumeral c = true)
    (inside : ∀ d ∈ cs, inNumeral d = true) (stops : Stops inNumeral rest) :
    toStrict (c :: cs ++ rest) = c :: cs ++ toStrict rest := by
  have noQuote : (c == '\'' || c == '"') = false := by
    simp [ne_of_class starts (by decide : startsNumeral '\'' = false),
      ne_of_class starts (by decide : startsNumeral '"' = false)]
  rw [List.cons_append, toStrict, noQuote, starts, takeWhile_append_of_stops inside stops,
    List.dropWhile_append_of_pos inside, dropWhile_of_stops stops]
  simp

theorem toStrict_integerText (i : Int) {rest : List Char} (stops : Stops inNumeral rest) :
    toStrict (Json.integerText i ++ rest) = Json.integerText i ++ toStrict rest := by
  have numeral : ∀ c ∈ Json.integerText i, startsNumeral c = true ∧ inNumeral c = true := by
    intro c mem
    rcases mem_integerText mem with rfl | digit
    · decide
    · simp [startsNumeral, inNumeral, Char.isAlphanum, digit]
  cases word : Json.integerText i with
  | nil => simp [Json.integerText, decimalDigits_ne_nil] at word
  | cons c cs =>
    rw [word] at numeral
    obtain ⟨⟨starts, -⟩, others⟩ := List.forall_mem_cons.1 numeral
    exact toStrict_numeral starts (fun d mem => (others d mem).2) stops

/-- A word is rewritten as a whole. -/
theorem toStrict_word {c : Char} {cs rest : List Char} (starts : startsIdentifier c = true)
    (inside : ∀ d ∈ cs, inIdentifier d = true) (stops : Stops inWord rest) :
    toStrict (c :: cs ++ rest) = wordText (c :: cs) rest ++ toStrict rest := by
  have inWord' : ∀ d ∈ cs, inWord d = true :=
    fun d mem => inWord_of_inIdentifier (inside d mem)
  have noQuote : (c == '\'' || c == '"') = false := by
    simp [ne_of_class starts (by decide : startsIdentifier '\'' = false),
      ne_of_class starts (by decide : startsIdentifier '"' = false)]
  have noNumeral : startsNumeral c = false := by
    cases numeral : startsNumeral c with
    | false => rfl
    | true =>
      simp only [startsNumeral, Bool.or_eq_true, beq_iff_eq] at numeral
      simp only [startsIdentifier, Bool.or_eq_true, beq_iff_eq] at starts
      rcases numeral with ((digit | rfl) | rfl) | rfl
      · obtain ⟨low, high⟩ := toNat_of_isDigit digit
        rcases starts with (letter | rfl) | rfl
        · have := toNat_of_isAlpha letter
          omega
        · exact absurd digit (by decide)
        · exact absurd digit (by decide)
      all_goals exact absurd starts (by decide)
  rw [List.cons_append, toStrict, noQuote, noNumeral, startsWord_of_startsIdentifier starts,
    takeWhile_append_of_stops inWord' stops, List.dropWhile_append_of_pos inWord',
    dropWhile_of_stops stops]
  simp

/-- A keyword that is no key stays. -/
theorem toStrict_keyword {word : List Char} (keyword : isKeyword word = true) {rest : List Char}
    (stops : Stops inWord rest) (noKey : colonFollows rest = false) :
    toStrict (word ++ rest) = word ++ toStrict rest := by
  have whole : wordText word rest = word := by
    simp [wordText, keyword, noKey]
  have letters : ∃ c cs, word = c :: cs ∧ startsIdentifier c = true ∧
      ∀ d ∈ cs, inIdentifier d = true := by
    simp only [isKeyword, Bool.or_eq_true, beq_iff_eq] at keyword
    rcases keyword with (rfl | rfl) | rfl
    · exact ⟨'t', _, rfl, by decide, List.all_eq_true.1 (by decide +kernel)⟩
    · exact ⟨'f', _, rfl, by decide, List.all_eq_true.1 (by decide +kernel)⟩
    · exact ⟨'n', _, rfl, by decide, List.all_eq_true.1 (by decide +kernel)⟩
  obtain ⟨c, cs, rfl, starts, inside⟩ := letters
  rw [toStrict_word starts inside stops, whole]

/-- No word goes on with what may follow a value. -/
theorem Ends.stops_word {rest : List Char} (ends : Ends rest) : Stops inWord rest :=
  ends.stops (inWord_of_isPunctuation rfl) (inWord_of_isPunctuation rfl)
    (inWord_of_isPunctuation rfl)

/-- What may follow a value makes no key of it. -/
theorem Ends.noKey {rest : List Char} (ends : Ends rest) : colonFollows rest = false := by
  have first : trimStart rest = rest :=
    trimStart_of_stops (ends.stops (by decide) (by decide) (by decide))
  have other : Stops (· == ':') rest := ends.stops (by decide) (by decide) (by decide)
  rw [colonFollows, first, beq_eq_false_iff_ne]
  exact fun colon => absurd (other ':' colon) (by decide)

/-- A bare key gets its quotes, the words that JSON knows too. -/
theorem toStrict_key (key : String) (rest : List Char) :
    toStrict (relaxedKey key ++ ':' :: rest) = Json.stringText key ++ ':' :: toStrict rest := by
  have colon : toStrict (':' :: rest) = ':' :: toStrict rest := toStrict_punctuation rfl rest
  unfold relaxedKey
  split
  · rename_i bare
    cases word : key.toList with
    | nil => simp [word, isIdentifier] at bare
    | cons c cs =>
      rw [word] at bare
      obtain ⟨starts, inside⟩ := isIdentifier_cons bare
      have stops : Stops inWord (':' :: rest) := stops_cons.2 (inWord_of_isPunctuation rfl)
      have plain := flatMap_escape_of_inIdentifier (List.forall_mem_cons.2
        ⟨inIdentifier_of_startsIdentifier starts, inside⟩)
      have isKey : colonFollows (':' :: rest) = true := rfl
      rw [toStrict_word starts inside stops, colon]
      simp [wordText, isKey, Json.stringText, word, plain]
  · rw [toStrict_string, colon]

/-! ## 4. The strict form of a relaxed text -/

/-- The strict form of a text, in front of whatever may follow a value, is the other one. -/
def Becomes (cs strict : List Char) : Prop :=
  ∀ rest, Ends rest → toStrict (cs ++ rest) = strict ++ toStrict rest

/-- Of items behind the first one, each with its comma in front, each becomes what it becomes. -/
theorem toStrict_run {α : Type} {relaxed strict : α → List Char} {items : List α}
    (each : ∀ a ∈ items, Becomes (relaxed a) (strict a)) {rest : List Char} (ends : Ends rest) :
    toStrict ((items.flatMap fun a => ',' :: relaxed a) ++ rest) =
      (items.flatMap fun a => ',' :: strict a) ++ toStrict rest := by
  induction items with
  | nil => rfl
  | cons a items ih =>
    obtain ⟨here, each⟩ := List.forall_mem_cons.1 each
    rw [List.flatMap_cons, List.append_assoc, List.cons_append, toStrict_punctuation rfl,
      here _ (ends_run relaxed items ends), ih each, List.flatMap_cons]
    simp

/-- A member becomes one if its value does. -/
theorem becomes_member {m : String × Value} (value : Becomes (relaxed m.2) (Json.text m.2)) :
    Becomes (relaxedMember m) (Json.memberText m) := by
  intro rest ends
  have key := toStrict_key m.1 (relaxed m.2 ++ rest)
  rw [value rest ends] at key
  simpa [relaxedMember, Json.memberText] using key

theorem toStrict_items {items : List Value}
    (each : ∀ v ∈ items, Becomes (relaxed v) (Json.text v)) {rest : List Char} (ends : Ends rest) :
    toStrict (relaxedItems items ++ rest) = Json.itemsText items ++ toStrict rest := by
  cases items with
  | nil => rfl
  | cons v items =>
    obtain ⟨first, others⟩ := List.forall_mem_cons.1 each
    rw [relaxedItems_cons, Json.itemsText_cons, List.append_assoc, List.append_assoc,
      first _ (ends_run relaxed items ends), toStrict_run others ends]

theorem toStrict_fields {fields : Fields}
    (each : ∀ m ∈ fields, Becomes (relaxed m.2) (Json.text m.2)) {rest : List Char}
    (ends : Ends rest) :
    toStrict (relaxedFields fields ++ rest) = Json.fieldsText fields ++ toStrict rest := by
  have members : ∀ m ∈ fields, Becomes (relaxedMember m) (Json.memberText m) :=
    fun m mem => becomes_member (each m mem)
  cases fields with
  | nil => rfl
  | cons m fields =>
    obtain ⟨first, others⟩ := List.forall_mem_cons.1 members
    rw [relaxedFields_cons, Json.fieldsText_cons, List.append_assoc, List.append_assoc,
      first _ (ends_run relaxedMember fields ends), toStrict_run others ends]

/-- **The strict form of the relaxed text of a value is its JSON text.** -/
theorem toStrict_relaxed {ok : String → Prop} {depth : Nat} {v : Value} (h : v.Plain ok depth) :
    Becomes (relaxed v) (Json.text v) := by
  induction h with
  | null depth =>
    intro rest ends
    exact toStrict_keyword (by decide) ends.stops_word ends.noKey
  | bool depth value =>
    intro rest ends
    cases value with
    | true => exact toStrict_keyword (by decide) ends.stops_word ends.noKey
    | false => exact toStrict_keyword (by decide) ends.stops_word ends.noKey
  | @integer depth i fits =>
    intro rest ends
    exact toStrict_integerText i (ends.stops (by decide) (by decide) (by decide))
  | @string depth s admitted =>
    intro rest ends
    exact toStrict_string s rest
  | @array depth items plain ih =>
    intro rest ends
    have whole : ∀ more, relaxed (.array items) ++ more =
        '[' :: (relaxedItems items ++ ']' :: more) := by
      intro more
      simp [relaxed]
    rw [whole, toStrict_punctuation rfl, toStrict_items ih (ends_square rest),
      toStrict_punctuation rfl]
    simp [Json.text]
  | @object depth fields ordered admitted plain ih =>
    intro rest ends
    have whole : ∀ more, relaxed (.object fields) ++ more =
        '{' :: (relaxedFields fields ++ '}' :: more) := by
      intro more
      simp [relaxed]
    rw [whole, toStrict_punctuation rfl, toStrict_fields ih (ends_brace rest),
      toStrict_punctuation rfl]
    simp [Json.text]

/-! ## 5. The relaxed text as JSON -/

/-- A reading gives nothing but this, if it gives anything. -/
def Only {α : Type} (reading : Except Json.Fault α) (result : α) : Prop :=
  ∀ other, reading = .ok other → other = result

theorem only_ok {α : Type} (result : α) : Only (.ok result) result := by
  rintro _ ⟨rfl⟩
  rfl

theorem only_error {α : Type} (fault : Json.Fault) (result : α) : Only (.error fault) result := by
  rintro _ ⟨⟩

theorem Only.bind {α β : Type} {reading : Except Json.Fault α} {result : α}
    {f : α → Except Json.Fault β} {last : β} (first : Only reading result)
    (second : Only (f result) last) : Only (reading.bind f) last := by
  intro other read
  cases reading with
  | error fault => cases read
  | ok found =>
    rw [first found rfl] at read
    exact second other read

/-- A value starts at once, with no space, and not like the end of a list. -/
theorem relaxed_starts {ok : String → Prop} {depth : Nat} {v : Value} (h : v.Plain ok depth) :
    ∃ c cs, relaxed v = c :: cs ∧ Json.isSpace c = false ∧ c ≠ ']' := by
  have same : relaxed v = Json.text v →
      ∃ c cs, relaxed v = c :: cs ∧ Json.isSpace c = false ∧ c ≠ ']' := by
    intro same
    obtain ⟨c, cs, first, starts⟩ := Json.text_starts h
    exact ⟨c, cs, same.trans first, Json.isSpace_of_startsValue starts,
      Json.ne_square_of_startsValue starts⟩
  cases h with
  | null => exact same (by simp [relaxed])
  | bool => exact same (by simp [relaxed])
  | integer => exact same (by simp [relaxed, Value.ofInt])
  | string => exact ⟨'\'', _, by simp [relaxed, relaxedString]; rfl, by decide, by decide⟩
  | array => exact ⟨'[', _, by simp [relaxed]; rfl, by decide, by decide⟩
  | object => exact ⟨'{', _, by simp [relaxed]; rfl, by decide, by decide⟩

/-- The items of a list, by any reader that gives nothing but each of them. -/
theorem only_readItems {item : Json.Reader Value} {items : List Value}
    (starts : ∀ v ∈ items, ∃ c cs, relaxed v = c :: cs ∧ Json.isSpace c = false ∧ c ≠ ']')
    (reads : ∀ v ∈ items, ∀ rest, Ends rest → Only (item (relaxed v ++ rest)) (v, rest))
    (steps : Nat) (done : List Value) (rest : List Char) :
    Only (Json.readItems item steps done ((items.flatMap fun v => ',' :: relaxed v) ++ ']' :: rest))
      (.array (done.reverse ++ items), rest) := by
  induction items generalizing steps done with
  | nil =>
    cases steps with
    | zero => exact only_error _ _
    | succ steps =>
      rw [List.append_nil]
      exact only_ok _
  | cons v items ih =>
    cases steps with
    | zero => exact only_error _ _
    | succ steps =>
      obtain ⟨⟨c, cs, first, noSpace, noClose⟩, starts⟩ := List.forall_mem_cons.1 starts
      obtain ⟨here, reads⟩ := List.forall_mem_cons.1 reads
      have read := here _ (ends_run relaxed items (ends_square rest))
      have later := ih starts reads steps (v :: done)
      rw [first, List.cons_append] at read
      rw [List.reverse_cons, List.append_assoc, List.singleton_append] at later
      rw [List.flatMap_cons, first, List.cons_append, List.cons_append, List.append_assoc,
        List.cons_append, Json.readItems_comma item steps done noSpace noClose]
      exact read.bind later

/-- A list behind its bracket. -/
theorem only_readList {item : Json.Reader Value} {items : List Value}
    (starts : ∀ v ∈ items, ∃ c cs, relaxed v = c :: cs ∧ Json.isSpace c = false ∧ c ≠ ']')
    (reads : ∀ v ∈ items, ∀ rest, Ends rest → Only (item (relaxed v ++ rest)) (v, rest))
    (rest : List Char) :
    Only (Json.readList item (relaxedItems items ++ ']' :: rest)) (.array items, rest) := by
  cases items with
  | nil => exact only_ok _
  | cons v items =>
    obtain ⟨⟨c, cs, first, noSpace, noClose⟩, starts⟩ := List.forall_mem_cons.1 starts
    obtain ⟨here, reads⟩ := List.forall_mem_cons.1 reads
    have read := here _ (ends_run relaxed items (ends_square rest))
    rw [first, List.cons_append] at read
    rw [relaxedItems_cons, first, List.append_assoc, List.cons_append,
      Json.readList_cons item noSpace noClose]
    exact read.bind (only_readItems starts reads _ [v] rest)

/-- An object is read only if it has no members: keys in the relaxed form are none in JSON. -/
theorem only_readObject (item : Json.Reader Value) (fields : Fields) (rest : List Char) :
    Only (Json.readObject item (relaxedFields fields ++ '}' :: rest)) (.object fields, rest) := by
  cases fields with
  | nil => exact only_ok _
  | cons m fields =>
    have refused : ∀ c cs, c ≠ '"' → c ≠ '}' → Json.isSpace c = false →
        Only (Json.readObject item (c :: cs)) (.object (m :: fields), rest) := by
      intro c cs noQuote noClose noSpace
      unfold Json.readObject
      rw [Json.skipSpace_cons noSpace]
      split
      · exact only_error _ _
      · rename_i closes
        exact absurd (List.cons.inj closes).1 noClose
      · rename_i opens
        exact absurd (List.cons.inj opens).1 noQuote
      · exact only_error _ _
    have first : ∃ c cs, relaxedKey m.1 = c :: cs ∧ c ≠ '"' ∧ c ≠ '}' ∧
        Json.isSpace c = false := by
      unfold relaxedKey
      split
      · rename_i bare
        cases word : m.1.toList with
        | nil => simp [word, isIdentifier] at bare
        | cons c cs =>
          rw [word] at bare
          obtain ⟨starts, -⟩ := isIdentifier_cons bare
          have other : ∀ d, startsIdentifier d = false → c ≠ d := fun d => ne_of_class starts
          refine ⟨c, cs, rfl, other _ (by decide), other _ (by decide), ?_⟩
          simp [Json.isSpace, other ' ' (by decide), other '\n' (by decide),
            other '\t' (by decide), other '\r' (by decide)]
      · exact ⟨'\'', _, rfl, by decide, by decide, by decide⟩
    obtain ⟨c, cs, key, noQuote, noClose, noSpace⟩ := first
    rw [relaxedFields_cons, relaxedMember, key]
    exact refused c _ noQuote noClose noSpace

theorem only_readValue_text {ok : String → Prop} {depth : Nat} {v : Value} (h : v.Plain ok depth)
    (same : relaxed v = Json.text v) {rest : List Char} (ends : Ends rest) :
    Only (Json.readValue depth (relaxed v ++ rest)) (v, rest) := by
  have stops : Stops Json.inNumber rest := ends.stops (by decide) (by decide) (by decide)
  rw [same, Json.readValue_text h stops]
  exact only_ok _

/-- **As JSON the relaxed text of a value gives nothing but the value**, if anything. -/
theorem only_readValue {ok : String → Prop} {limit : Nat} {v : Value} (h : v.Plain ok limit)
    (depth : Nat) {rest : List Char} (ends : Ends rest) :
    Only (Json.readValue depth (relaxed v ++ rest)) (v, rest) := by
  induction h generalizing depth rest with
  | null =>
    exact only_readValue_text (.null depth : Value.Plain ok depth _) (by simp [relaxed]) ends
  | bool _ value =>
    exact only_readValue_text (.bool depth value : Value.Plain ok depth _) (by simp [relaxed]) ends
  | integer _ fits =>
    exact only_readValue_text (.integer depth fits : Value.Plain ok depth _)
      (by simp [relaxed, Value.ofInt]) ends
  | string =>
    unfold Json.readValue
    exact only_error _ _
  | @array _ items plain ih =>
    have whole : relaxed (.array items) ++ rest = '[' :: (relaxedItems items ++ ']' :: rest) := by
      simp [relaxed]
    rw [whole]
    cases depth with
    | zero =>
      unfold Json.readValue
      exact only_error _ _
    | succ depth =>
      have bracket : ∀ cs, Json.readValue (depth + 1) ('[' :: cs) =
          Json.readList (Json.readValue depth) cs := by
        intro cs
        unfold Json.readValue
        rfl
      rw [bracket]
      exact only_readList (fun v mem => relaxed_starts (plain v mem))
        (fun v mem rest ends => ih v mem depth ends) rest
  | @object _ fields ordered admitted plain ih =>
    have whole : relaxed (.object fields) ++ rest =
        '{' :: (relaxedFields fields ++ '}' :: rest) := by
      simp [relaxed]
    rw [whole]
    cases depth with
    | zero =>
      unfold Json.readValue
      exact only_error _ _
    | succ depth =>
      have brace : ∀ cs, Json.readValue (depth + 1) ('{' :: cs) =
          Json.readObject (Json.readValue depth) cs := by
        intro cs
        unfold Json.readValue
        rfl
      rw [brace]
      exact only_readObject _ fields rest

theorem readValue_of_read? {cs : List Char} {v : Value} (read : Json.read? cs = some v) :
    ∃ rest, Json.readValue Json.depthLimit cs = .ok (v, rest) := by
  unfold Json.read? Json.read at read
  cases whole : Json.readValue Json.depthLimit cs with
  | error fault => simp [whole, bind, Except.bind, Except.toOption] at read
  | ok found =>
    obtain ⟨w, rest⟩ := found
    simp only [whole, bind, Except.bind] at read
    split at read
    · cases read
      exact ⟨rest, rfl⟩
    · cases read

/-- **The relaxed text of a value is a literal of it**, if its JSON text is read back. -/
theorem read?_relaxed {ok : String → Prop} {depth : Nat} {v : Value} (h : v.Plain ok depth)
    (reads : Json.read? (Json.text v) = some v) : read? (relaxed v) = some v := by
  have strict : toStrict (relaxed v) = Json.text v := by
    have whole := toStrict_relaxed h [] ends_nil
    have none : toStrict [] = [] := by rw [toStrict]
    rwa [List.append_nil, none, List.append_nil] at whole
  rw [read?, strict, reads]
  cases direct : Json.read? (relaxed v) with
  | none => rfl
  | some w =>
    obtain ⟨rest, read⟩ := readValue_of_read? direct
    have only := only_readValue h Json.depthLimit ends_nil
    rw [List.append_nil] at only
    cases only _ read
    rfl

/-! ## 6. Relaxed texts are enclosed -/

theorem leavesBrackets_relaxedEscape : LeavesBrackets relaxedEscape where
  kept := by
    intro c bracket
    simp only [isBracket, Bool.or_eq_true, beq_iff_eq] at bracket
    rcases bracket with ((rfl | rfl) | rfl) | rfl <;> rfl
  brought := by
    intro c d mem
    unfold relaxedEscape at mem
    split at mem
    · rename_i double
      exact Or.inl ((List.mem_singleton.1 mem).trans double.symm)
    split at mem
    · rename_i single
      simp only [List.mem_cons, List.not_mem_nil, or_false] at mem
      rcases mem with rfl | rfl
      · exact Or.inr (by decide)
      · exact Or.inl single.symm
    · exact mem_escape mem

theorem enclosed_relaxedString {s : String} (h : EnclosedText s) : Enclosed (relaxedString s) := by
  have quote : Enclosed ['\''] := enclosed_singleton (by decide)
  exact (quote.append (leavesBrackets_relaxedEscape.enclosed h)).append quote

theorem enclosed_relaxedKey {key : String} (h : EnclosedText key) : Enclosed (relaxedKey key) := by
  unfold relaxedKey
  split
  · exact h
  · exact enclosed_relaxedString h

theorem enclosed_relaxedItems {items : List Value} (h : ∀ v ∈ items, Enclosed (relaxed v)) :
    Enclosed (relaxedItems items) := by
  cases items with
  | nil => exact enclosed_nil
  | cons v items =>
    obtain ⟨first, others⟩ := List.forall_mem_cons.1 h
    rw [relaxedItems_cons]
    exact first.append (enclosed_run others)

theorem enclosed_relaxedFields {fields : Fields}
    (keys : ∀ m ∈ fields, EnclosedText m.1) (h : ∀ m ∈ fields, Enclosed (relaxed m.2)) :
    Enclosed (relaxedFields fields) := by
  have colon : Enclosed [':'] := enclosed_singleton (by decide)
  have member : ∀ m ∈ fields, Enclosed (relaxedMember m) := fun m mem =>
    (enclosed_relaxedKey (keys m mem)).append (colon.append (h m mem))
  cases fields with
  | nil => exact enclosed_nil
  | cons m fields =>
    obtain ⟨first, others⟩ := List.forall_mem_cons.1 member
    rw [relaxedFields_cons]
    exact first.append (enclosed_run others)

/-- The relaxed text of a value is enclosed if its strings are. -/
theorem enclosed_relaxed {depth : Nat} {v : Value} (h : v.Plain EnclosedText depth) :
    Enclosed (relaxed v) := by
  induction h with
  | null depth => exact enclosed_of_free (by simp [relaxed, Json.text, isBracket])
  | bool depth value =>
    cases value with
    | true => exact enclosed_of_free (by simp [relaxed, Json.text, isBracket])
    | false => exact enclosed_of_free (by simp [relaxed, Json.text, isBracket])
  | @integer depth i fits => exact enclosed_integerText i
  | string depth admitted =>
    rw [relaxed]
    exact enclosed_relaxedString admitted
  | array plain ih =>
    rw [relaxed]
    exact (enclosed_relaxedItems ih).squared
  | object ordered admitted plain ih =>
    rw [relaxed]
    exact (enclosed_relaxedFields admitted ih).braced

end Literal

/-! ## 7. Both texts as the only slot of a list -/

namespace Slot

/-- A literal in enclosed brackets is the only slot of its list. -/
theorem readList_literal {inner cs : List Char} {v : Value} (enclosed : Enclosed inner)
    (region : cs = '{' :: (inner ++ ['}']) ∨ cs = '[' :: (inner ++ [']']))
    (reads : Literal.read? cs = some v) : readList cs = [some v] := by
  have whole : Enclosed cs := by
    rcases region with rfl | rfl
    · exact enclosed.braced
    · exact enclosed.squared
  have visible : ∃ c ∈ cs, isBlank c = false := by
    rcases region with rfl | rfl
    · exact ⟨'{', List.mem_cons_self .., by decide⟩
    · exact ⟨'[', List.mem_cons_self .., by decide⟩
  have nonempty : marked cs ≠ [] := by
    refine whole.marked_ne_nil ?_
    rcases region with rfl | rfl
    · exact List.cons_ne_nil _ _
    · exact List.cons_ne_nil _ _
  have ends : Follows [] [] := Or.inr ⟨rfl, rfl⟩
  have cutOff : cut (marked cs) = (marked cs, []) := by
    rcases region with rfl | rfl
    · simpa [Written.Gap.none] using cut_braced .none .none enclosed ends
    · simpa [Written.Gap.none] using cut_squared .none .none enclosed ends
  have token : ofToken (marked cs) = some v := by
    rcases region with rfl | rfl
    · obtain ⟨u, marks, -⟩ := enclosed.marked_braced
      exact Written.ofToken_region whole marks (Or.inl ⟨rfl, rfl⟩) reads
    · obtain ⟨u, marks, -⟩ := enclosed.marked_squared
      exact Written.ofToken_region whole marks (Or.inr ⟨rfl, rfl⟩) reads
  rw [readList_of_visible visible, whole.markBrackets_eq,
    Written.readMarked_of_cut nonempty cutOff, token, readMarked_nil]

/-- **A literal means the same in the relaxed form as in JSON**: as the text of a list, each of them
gives the list or object as its only slot.  All that this asks of JSON is that the value is read
back from its text; and up to the depth that is read it is. -/
theorem readList_relaxed {depth : Nat} {v : Value} (plain : v.Plain EnclosedText depth)
    (container : (∃ items, v = .array items) ∨ ∃ fields, v = .object fields) :
    (Json.read? (Json.text v) = some v →
        readList (Literal.relaxed v) = [some v] ∧ readList (Json.text v) = [some v]) ∧
      (depth ≤ Json.depthLimit → Json.read? (Json.text v) = some v) := by
  refine ⟨fun reads => ?_, fun le => Json.read?_text (plain.mono le)⟩
  have relaxedReads := Literal.read?_relaxed plain reads
  have strictReads := Written.literal_read?_of_json reads
  rcases container with ⟨items, rfl⟩ | ⟨fields, rfl⟩
  · obtain ⟨cs, enclosed, whole⟩ := Written.text_array plain
    refine ⟨?_, readList_literal enclosed (Or.inr whole) strictReads⟩
    cases plain with
    | array plain =>
      have items' := Literal.enclosed_relaxedItems fun v mem =>
        Literal.enclosed_relaxed (plain v mem)
      exact readList_literal items' (Or.inr (by simp [Literal.relaxed])) relaxedReads
  · obtain ⟨cs, enclosed, whole⟩ := Written.text_object plain
    refine ⟨?_, readList_literal enclosed (Or.inl whole) strictReads⟩
    cases plain with
    | object ordered admitted plain =>
      have fields' := Literal.enclosed_relaxedFields admitted fun m mem =>
        Literal.enclosed_relaxed (plain m mem)
      exact readList_literal fields' (Or.inl (by simp [Literal.relaxed])) relaxedReads

/-- An object with a bare key, one that needs quotes, and one that is a word of JSON.  Its string
holds both quotes and a backslash, and the two kinds of brackets cross in it. -/
def quotesAndBrackets : Value := .object [
  ("$x", .array [.ofInt (-7), .string "\"'\\[\x7b]\x7d", .null, .object []]),
  ("it's", .bool true), ("true", .array [])]

theorem plain_quotesAndBrackets : quotesAndBrackets.Plain EnclosedText 3 := by
  have text : EnclosedText "\"'\\[\x7b]\x7d" := ⟨by decide +kernel, by decide +kernel⟩
  have empty : (Value.object []).Plain EnclosedText 1 :=
    .object List.Pairwise.nil (fun _ no => absurd no List.not_mem_nil)
      fun _ no => absurd no List.not_mem_nil
  have items : (Value.array [.ofInt (-7), .string "\"'\\[\x7b]\x7d", .null, .object []]).Plain
      EnclosedText 2 := by
    refine .array fun v mem => ?_
    simp only [List.mem_cons, List.not_mem_nil, or_false] at mem
    rcases mem with rfl | rfl | rfl | rfl
    · exact .integer 1 (by decide +kernel)
    · exact .string 1 text
    · exact .null 1
    · exact empty
  have ordered : ["$x", "it's", "true"].Pairwise (· < ·) := by decide +kernel
  refine .object ordered (fun m mem => ?_) fun m mem => ?_
  · simp only [List.mem_cons, List.not_mem_nil, or_false] at mem
    rcases mem with rfl | rfl | rfl <;> exact ⟨by decide +kernel, by decide +kernel⟩
  · simp only [List.mem_cons, List.not_mem_nil, or_false] at mem
    rcases mem with rfl | rfl | rfl
    · exact items
    · exact .bool 2 true
    · exact .array fun _ no => absurd no List.not_mem_nil

/-- Its two texts, and what is read from them. -/
theorem readList_quotesAndBrackets :
    Literal.relaxed quotesAndBrackets =
        "\x7b$x:[-7,'\"\\'\\\\[\x7b]\x7d',null,\x7b\x7d],'it\\'s':true,true:[]\x7d".toList ∧
      Json.text quotesAndBrackets = ("\x7b\"$x\":[-7,\"\\\"'\\\\[\x7b]\x7d\",null,\x7b\x7d]," ++
        "\"it's\":true,\"true\":[]\x7d").toList ∧
      readList (Literal.relaxed quotesAndBrackets) = [some quotesAndBrackets] ∧
      readList (Json.text quotesAndBrackets) = [some quotesAndBrackets] := by
  obtain ⟨both, reads⟩ := readList_relaxed plain_quotesAndBrackets (Or.inr ⟨_, rfl⟩)
  obtain ⟨relaxed, strict⟩ := both (reads (by decide))
  exact ⟨by decide +kernel, by decide +kernel, relaxed, strict⟩

end Slot

end Stencil
