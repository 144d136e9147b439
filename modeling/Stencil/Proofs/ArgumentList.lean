/-
# Argument lists that are written and read

Slots as an author writes them: unset, a keyword, an integer, a string in quotes, an object or list
in JSON, each with blanks around it, and commas between them.  `printSlots` gives the text of such a
list, and `readList_printSlots` says that the list is read back from it.

* `cut_print`: the text of one slot is cut off as a whole, whatever commas it holds, and what
  follows its comma is left;
* `ofToken_token`: what is cut off has the value of the slot.

The list is marked as a whole before it is cut.  As every slot is enclosed, this marks each slot for
itself (`marked_printSlots`): no slot leaves a bracket open for the next one.
-/
import Stencil.Proofs.Enclosed
import Stencil.Proofs.JsonText

namespace Stencil

open Stencil.Text Stencil.Depth

/-! ## 1. Bare words -/

/-- The characters of keywords and integers. -/
def isBare (c : Char) : Bool := Grammar.isWord c || c == '-'

theorem isBlank_of_isBare {c : Char} (h : isBare c = true) : isBlank c = false := by
  rcases Bool.or_eq_true_iff.1 h with word | minus
  · exact isBlank_of_isWord word
  · exact eq_of_beq minus ▸ (by decide : isBlank '-' = false)

theorem isBracket_of_isBare {c : Char} (h : isBare c = true) : isBracket c = false :=
  isBracket_of_class h (by decide) (by decide)

theorem isBare_integerText (i : Int) : ∀ c ∈ Json.integerText i, isBare c = true := by
  intro c mem
  rcases mem_integerText mem with rfl | digit
  · decide
  · simp [isBare, isWord_of_isDigit digit]

theorem isBare_keyword : ∀ word ∈ ["null", "true", "false"], word.toList ≠ [] ∧
    ∀ c ∈ word.toList, isBare c = true := by
  intro word mem
  simp only [List.mem_cons, List.not_mem_nil, or_false] at mem
  rcases mem with rfl | rfl | rfl
  · exact ⟨by simp, List.all_eq_true.1 (by decide +kernel)⟩
  · exact ⟨by simp, List.all_eq_true.1 (by decide +kernel)⟩
  · exact ⟨by simp, List.all_eq_true.1 (by decide +kernel)⟩

/-! ## 2. JSON texts are enclosed -/

/-- A string in which both kinds of brackets are balanced. -/
def EnclosedText (s : String) : Prop := Enclosed s.toList

theorem isBracket_hexDigit : ∀ n < 16, isBracket (Json.hexDigit n) = false := by
  decide

/-- Escaping brings no bracket. -/
theorem mem_escape {c d : Char} (mem : d ∈ Json.escape c) : d = c ∨ isBracket d = false := by
  unfold Json.escape at mem
  split at mem
  all_goals try
    simp only [List.mem_cons, List.not_mem_nil, or_false] at mem
    rcases mem with rfl | rfl <;> exact Or.inr (by decide)
  split at mem
  · simp only [List.mem_cons, List.not_mem_nil, or_false] at mem
    rename_i control
    rcases mem with rfl | rfl | rfl | rfl | rfl | rfl
    · exact Or.inr (by decide)
    · exact Or.inr (by decide)
    · exact Or.inr (by decide)
    · exact Or.inr (by decide)
    · exact Or.inr (isBracket_hexDigit _ (by omega))
    · exact Or.inr (isBracket_hexDigit _ (by omega))
  · exact Or.inl (List.mem_singleton.1 mem)

/-- Rewriting single characters in a way that leaves brackets alone and brings none. -/
structure LeavesBrackets (f : Char → List Char) : Prop where
  kept : ∀ c, isBracket c = true → f c = [c]
  brought : ∀ c, ∀ d ∈ f c, d = c ∨ isBracket d = false

theorem leavesBrackets_escape : LeavesBrackets Json.escape where
  kept := by
    intro c bracket
    simp only [isBracket, Bool.or_eq_true, beq_iff_eq] at bracket
    rcases bracket with ((rfl | rfl) | rfl) | rfl <;> rfl
  brought := fun c d mem => mem_escape mem

namespace LeavesBrackets

variable {f : Char → List Char}

theorem free (h : LeavesBrackets f) {b : Bracket} (opens : isBracket b.opener = true)
    (closes : isBracket b.closer = true) {c : Char} (noOpener : c ≠ b.opener)
    (noCloser : c ≠ b.closer) : b.Free (f c) := by
  intro d mem
  rcases h.brought c d mem with rfl | plain
  · exact ⟨noOpener, noCloser⟩
  · exact ⟨(ne_of_class opens plain).symm, (ne_of_class closes plain).symm⟩

/-- It changes nothing about how deep brackets nest. -/
theorem nesting (h : LeavesBrackets f) {b : Bracket} (opens : isBracket b.opener = true)
    (closes : isBracket b.closer = true) (depth : Nat) (cs : List Char) :
    b.nesting depth (cs.flatMap f) = b.nesting depth cs := by
  induction cs generalizing depth with
  | nil => rfl
  | cons c cs ih =>
    rw [List.flatMap_cons]
    rcases b.char_cases c with rfl | rfl | ⟨noOpener, noCloser⟩
    · rw [h.kept _ opens, List.singleton_append, Bracket.nesting_opener, Bracket.nesting_opener,
        ih]
    · rw [h.kept _ closes, List.singleton_append]
      cases depth with
      | zero => simp
      | succ depth => simp [ih]
    · rw [Bracket.nesting_append, (h.free opens closes noOpener noCloser).nesting,
        Option.bind_some, ih, Bracket.nesting_other noOpener noCloser]

theorem enclosed (h : LeavesBrackets f) {cs : List Char} (enclosed : Enclosed cs) :
    Enclosed (cs.flatMap f) := by
  have curly := @nesting f h braces rfl rfl 0 cs
  have square := @nesting f h squares rfl rfl 0 cs
  exact ⟨curly.trans enclosed.curly, square.trans enclosed.square⟩

end LeavesBrackets

theorem enclosed_stringText {s : String} (h : EnclosedText s) : Enclosed (Json.stringText s) := by
  have quote : Enclosed ['"'] := enclosed_singleton (by decide)
  exact (quote.append (leavesBrackets_escape.enclosed h)).append quote

theorem enclosed_integerText (i : Int) : Enclosed (Json.integerText i) :=
  enclosed_of_free fun c mem => isBracket_of_isBare (isBare_integerText i c mem)

/-- Enclosed items behind the first one, each with its comma in front. -/
theorem enclosed_run {α : Type} {print : α → List Char} {items : List α}
    (h : ∀ a ∈ items, Enclosed (print a)) : Enclosed (items.flatMap fun a => ',' :: print a) := by
  have comma : Enclosed [','] := enclosed_singleton (by decide)
  exact Enclosed.flatMap fun a mem => comma.append (h a mem)

theorem enclosed_itemsText {items : List Value} (h : ∀ v ∈ items, Enclosed (Json.text v)) :
    Enclosed (Json.itemsText items) := by
  cases items with
  | nil => exact enclosed_nil
  | cons v items =>
    obtain ⟨first, others⟩ := List.forall_mem_cons.1 h
    rw [Json.itemsText_cons]
    exact first.append (enclosed_run others)

theorem enclosed_fieldsText {fields : Fields}
    (h : ∀ m ∈ fields, Enclosed (Json.memberText m)) : Enclosed (Json.fieldsText fields) := by
  cases fields with
  | nil => exact enclosed_nil
  | cons m fields =>
    obtain ⟨first, others⟩ := List.forall_mem_cons.1 h
    rw [Json.fieldsText_cons]
    exact first.append (enclosed_run others)

/-- **The JSON text of a value is enclosed if its strings are.** -/
theorem enclosed_text {depth : Nat} {v : Value} (h : v.Plain EnclosedText depth) :
    Enclosed (Json.text v) := by
  induction h with
  | null depth => exact enclosed_of_free (by simp [Json.text, isBracket])
  | bool depth value =>
    cases value with
    | true => exact enclosed_of_free (by simp [Json.text, isBracket])
    | false => exact enclosed_of_free (by simp [Json.text, isBracket])
  | @integer depth i fits => exact enclosed_integerText i
  | string depth admitted => exact enclosed_stringText admitted
  | array plain ih =>
    rw [Json.text]
    exact (enclosed_itemsText ih).squared
  | object ordered admitted plain ih =>
    have colon : Enclosed [':'] := enclosed_singleton (by decide)
    rw [Json.text]
    refine (enclosed_fieldsText fun m mem => ?_).braced
    exact (enclosed_stringText (admitted m mem)).append (colon.append (ih m mem))

/-! ## 3. Written slots -/

namespace Written

/-- What a slot is written as.  A string is written between quotes of a kind it does not hold; of
strings, those in lists and objects included, the brackets are balanced. -/
inductive Item
  | unset
  | null
  | bool (value : Bool)
  | integer (value : Int) (low : Binary64.leastInteger ≤ value)
      (high : value ≤ Binary64.greatestInteger)
  | quoted (quote : Quote) (text : String) (free : quote.mark ∉ text.toList)
      (enclosed : EnclosedText text)
  | array (depth : Nat) (items : List Value)
      (plain : (Value.array items).Plain EnclosedText depth)
  | object (depth : Nat) (fields : Fields)
      (plain : (Value.object fields).Plain EnclosedText depth)

/-- The slot that is written. -/
def Item.slot : Item → Slot
  | unset => none
  | null => some .null
  | bool value => some (.bool value)
  | integer value _ _ => some (.ofInt value)
  | quoted _ text _ _ => some (.string text)
  | array _ items _ => some (.array items)
  | object _ fields _ => some (.object fields)

/-- Its text: lists and objects are written as compact JSON. -/
def Item.print : Item → List Char
  | unset => []
  | null => "null".toList
  | bool true => "true".toList
  | bool false => "false".toList
  | integer value _ _ => Json.integerText value
  | quoted quote text _ _ => quote.mark :: (text.toList ++ [quote.mark])
  | array _ items _ => Json.text (.array items)
  | object _ fields _ => Json.text (.object fields)

/-- How deep lists and objects nest in a slot, at most. -/
def Item.depth : Item → Nat
  | array depth _ _ => depth
  | object depth _ _ => depth
  | _ => 0

/-- The JSON text of a list or object gives it back. -/
def Item.ReadsBack : Item → Prop
  | array _ items _ => Json.read? (Json.text (.array items)) = some (.array items)
  | object _ fields _ => Json.read? (Json.text (.object fields)) = some (.object fields)
  | _ => True

/-- A slot with the blanks around it. -/
structure Argument where
  before : Gap := .none
  item : Item
  behind : Gap := .none

def Argument.print (a : Argument) : List Char := a.before.text ++ (a.item.print ++ a.behind.text)

/-- The text of a list of slots. -/
def printSlots : List Argument → List Char
  | [] => []
  | [a] => a.print
  | a :: as => a.print ++ ',' :: printSlots as

/-- What the reader knows of stays within its depth. -/
theorem Item.readsBack (i : Item) (le : i.depth ≤ Json.depthLimit) : i.ReadsBack := by
  cases i with
  | array depth items plain => exact Json.read?_text (plain.mono le)
  | object depth fields plain => exact Json.read?_text (plain.mono le)
  | _ => trivial

theorem Quote.isBracket_mark (q : Quote) : isBracket q.mark = false := by
  cases q <;> rfl

theorem Item.enclosed_print (i : Item) : Enclosed i.print := by
  cases i with
  | unset => exact enclosed_nil
  | null => exact enclosed_of_free (by simp [print, isBracket])
  | bool value =>
    cases value with
    | true => exact enclosed_of_free (by simp [print, isBracket])
    | false => exact enclosed_of_free (by simp [print, isBracket])
  | integer value low high => exact enclosed_integerText value
  | quoted quote text free enclosed =>
    have mark : Enclosed [quote.mark] := enclosed_singleton quote.isBracket_mark
    exact mark.append (enclosed.append mark)
  | array depth items plain => exact enclosed_text plain
  | object depth fields plain => exact enclosed_text plain

theorem Gap.isBracket (g : Gap) : ∀ c ∈ g.text, isBracket c = false := fun c mem =>
  isBracket_of_isBlank (g.blank c mem)

theorem Argument.enclosed_print (a : Argument) : Enclosed a.print :=
  (enclosed_of_free a.before.isBracket).append
    (a.item.enclosed_print.append (enclosed_of_free a.behind.isBracket))

theorem enclosed_printSlots (as : List Argument) : Enclosed (printSlots as) := by
  have comma : Enclosed [','] := enclosed_singleton (by decide)
  induction as with
  | nil => exact enclosed_nil
  | cons a as ih =>
    cases as with
    | nil => exact a.enclosed_print
    | cons a' as => exact a.enclosed_print.append (comma.append ih)

/-- A slot is marked for itself. -/
theorem Argument.marked_print (a : Argument) :
    marked a.print = a.before.text ++ (marked a.item.print ++ a.behind.text) := by
  unfold Argument.print
  rw [(enclosed_of_free a.before.isBracket).marked_append, a.item.enclosed_print.marked_append,
    marked_of_free a.before.isBracket, marked_of_free a.behind.isBracket]

/-- **A list is marked slot by slot.** -/
theorem marked_printSlots (a a' : Argument) (as : List Argument) :
    marked (printSlots (a :: a' :: as)) =
      a.before.text ++ (marked a.item.print ++
        (a.behind.text ++ ',' :: marked (printSlots (a' :: as)))) := by
  have comma : ∀ c ∈ [','], isBracket c = false := by simp [isBracket]
  have whole : printSlots (a :: a' :: as) = a.print ++ ([','] ++ printSlots (a' :: as)) := rfl
  rw [whole, a.enclosed_print.marked_append, (enclosed_of_free comma).marked_append,
    marked_of_free comma, a.marked_print]
  simp

end Written

/-! ## 4. Cutting off a slot -/

namespace Slot

/-- What follows the text of a slot and its blanks: a comma and a rest, or the end. -/
def Follows (tail rest : List Char) : Prop := tail = ',' :: rest ∨ (tail = [] ∧ rest = [])

theorem Follows.stops {tail rest : List Char} (h : Follows tail rest) {p : Char → Bool}
    (comma : p ',' = false) : Stops p tail := by
  rcases h with rfl | ⟨rfl, -⟩
  · exact stops_cons.2 comma
  · simp [Stops]

theorem Follows.drop {tail rest : List Char} (h : Follows tail rest) : tail.drop 1 = rest := by
  rcases h with rfl | ⟨rfl, rfl⟩
  · rfl
  · rfl

theorem afterToken?_of_follows (g : Written.Gap) {tail rest : List Char} (h : Follows tail rest) :
    afterToken? (g.text ++ tail) = some rest := by
  unfold afterToken?
  rw [trimStart_append g.blank, trimStart_of_stops (h.stops (by decide))]
  rcases h with rfl | ⟨rfl, rfl⟩
  · rfl
  · rfl

theorem quotedToken?_of_stops {quote : Char} {cs : List Char} (h : Stops (· == quote) cs) :
    quotedToken? quote cs = none := by
  cases cs with
  | nil => rfl
  | cons c cs => simp [quotedToken?, stops_cons.1 h]

theorem regionToken?_of_stops {opener closer : Char} {cs : List Char}
    (h : Stops (· == opener) cs) : regionToken? opener closer cs = none := by
  cases cs with
  | nil => simp [regionToken?]
  | cons c cs =>
    have other : c ≠ opener := by simpa using stops_cons.1 h
    simp [regionToken?, Ne.symm other]

/-- A quoted string is cut off at its closing quote, if the slot ends there. -/
theorem quotedToken?_closed {quote : Char} {inner : List Char} (inside : quote ∉ inner)
    (rest : List Char) : quotedToken? quote (quote :: (inner ++ quote :: rest)) =
      (afterToken? rest).map fun rest => (quote :: (inner ++ [quote]), rest) := by
  have run : (inner ++ quote :: rest).takeWhile (· != quote) = inner := by
    refine takeWhile_append_of_stops ?_ (stops_cons.2 (by simp))
    intro c mem
    have : c ≠ quote := fun same => inside (same ▸ mem)
    simpa using this
  simp [quotedToken?, run]

theorem quotedToken?_append {quote : Char} {inner : List Char} (inside : quote ∉ inner)
    (g : Written.Gap) {tail rest : List Char} (h : Follows tail rest) :
    quotedToken? quote (quote :: (inner ++ quote :: (g.text ++ tail))) =
      some (quote :: (inner ++ [quote]), rest) := by
  rw [quotedToken?_closed inside, afterToken?_of_follows g h, Option.map_some]

/-- A region is cut off at the first closing mark, if the slot ends there. -/
theorem regionEnd?_append {close inner after rest : List Char} (nonempty : close ≠ [])
    (avoids : Bracket.Avoids close (close ++ after) inner)
    (ends : afterToken? after = some rest) (passed : List Char) :
    regionEnd? close passed (inner ++ (close ++ after)) =
      some (passed.reverse ++ (inner ++ close), rest) := by
  induction inner generalizing passed with
  | nil =>
    cases close with
    | nil => exact absurd rfl nonempty
    | cons c close => simp [regionEnd?, ends]
  | cons c inner ih =>
    have here : close.isPrefixOf (c :: (inner ++ (close ++ after))) = false := by
      rw [← Bool.not_eq_true, List.isPrefixOf_iff_prefix]
      exact avoids (c :: inner) (List.suffix_refl _) (List.cons_ne_nil _ _)
    have later : Bracket.Avoids close (close ++ after) inner := by
      intro v suffix
      exact avoids v (suffix.trans (List.suffix_cons c inner))
    rw [List.cons_append, regionEnd?]
    simp only [here]
    rw [if_neg Bool.false_ne_true]
    simp only
    rw [ih later]
    simp

theorem regionToken?_append {opener closer : Char} {inner : List Char}
    (g : Written.Gap) {tail rest : List Char} (h : Follows tail rest)
    (avoids : Bracket.Avoids ['%', '1', closer] (['%', '1', closer] ++ (g.text ++ tail)) inner) :
    regionToken? opener closer
        ([opener, '1', '%'] ++ (inner ++ (['%', '1', closer] ++ (g.text ++ tail)))) =
      some ([opener, '1', '%'] ++ (inner ++ ['%', '1', closer]), rest) := by
  unfold regionToken?
  have starts : [opener, '1', '%'].isPrefixOf
      ([opener, '1', '%'] ++ (inner ++ (['%', '1', closer] ++ (g.text ++ tail)))) = true :=
    List.isPrefixOf_iff_prefix.2 (List.prefix_append _ _)
  simp only
  rw [if_pos starts, List.drop_left, regionEnd?_append (List.cons_ne_nil _ _) avoids
    (afterToken?_of_follows g h)]
  simp

/-- The first token is none of quotes and brackets where the list starts with none. -/
theorem cut_of_stops {cs : List Char} (single : Stops (· == '\'') (trimStart cs))
    (double : Stops (· == '"') (trimStart cs)) (brace : Stops (· == '{') (trimStart cs))
    (square : Stops (· == '[') (trimStart cs)) : cut cs = bareToken (trimStart cs) := by
  simp [cut, quotedToken?_of_stops single, quotedToken?_of_stops double,
    regionToken?_of_stops brace, regionToken?_of_stops square]

theorem bareToken_append {word gap tail rest : List Char} (bare : ∀ c ∈ word, isBare c = true)
    (blank : ∀ c ∈ gap, isBlank c = true) (h : Follows tail rest) :
    bareToken (word ++ (gap ++ tail)) = (word, rest) := by
  have run : (word ++ (gap ++ tail)).takeWhile (· != ',') = word ++ gap := by
    rw [← List.append_assoc]
    refine takeWhile_append_of_stops (fun c mem => ?_) (h.stops (by decide))
    rcases List.mem_append.1 mem with inWord | inGap
    · simpa using ne_of_class (bare c inWord) (by decide : isBare ',' = false)
    · simpa using ne_of_class (blank c inGap) (by decide : isBlank ',' = false)
  have last : trimEnd (word ++ gap) = word := by
    rw [trimEnd_append blank]
    exact trimEnd_of_last fun c last => isBlank_of_isBare (bare c (List.mem_of_getLast? last))
  have behind : (word ++ (gap ++ tail)).drop ((word ++ gap).length + 1) = rest := by
    rw [← List.append_assoc, ← List.drop_drop, List.drop_left, h.drop]
  simp only [bareToken, run, last, behind]

/-- A keyword, an integer or nothing is cut off at the next comma. -/
theorem cut_bare (before behind : Written.Gap) {word tail rest : List Char}
    (bare : ∀ c ∈ word, isBare c = true) (h : Follows tail rest) :
    cut (before.text ++ (word ++ (behind.text ++ tail))) = (word, rest) := by
  -- Without a word the blanks behind it are trimmed with those in front.
  obtain ⟨gap, blank, trimmed⟩ : ∃ gap, (∀ c ∈ gap, isBlank c = true) ∧
      trimStart (before.text ++ (word ++ (behind.text ++ tail))) = word ++ (gap ++ tail) := by
    rw [trimStart_append before.blank]
    cases word with
    | nil =>
      refine ⟨[], fun c no => absurd no List.not_mem_nil, ?_⟩
      rw [List.nil_append, trimStart_append behind.blank, trimStart_of_stops (h.stops (by decide))]
      rfl
    | cons c word =>
      refine ⟨behind.text, behind.blank, trimStart_of_stops (stops_cons.2 ?_)⟩
      exact isBlank_of_isBare (bare c (List.mem_cons_self ..))
  have stops : ∀ d, isBare d = false → isBlank d = false → d ≠ ',' →
      Stops (· == d) (trimStart (before.text ++ (word ++ (behind.text ++ tail)))) := by
    intro d noBare noBlank noComma
    rw [trimmed]
    cases word with
    | nil =>
      have comma : (',' == d) = false := by simpa using noComma.symm
      rw [List.nil_append]
      refine Stops.append_blanks blank (fun c mem => ?_) (h.stops comma)
      simpa using ne_of_class mem noBlank
    | cons c word =>
      refine stops_cons.2 ?_
      simpa using ne_of_class (bare c (List.mem_cons_self ..)) noBare
  rw [cut_of_stops (stops _ (by decide) (by decide) (by decide))
    (stops _ (by decide) (by decide) (by decide)) (stops _ (by decide) (by decide) (by decide))
    (stops _ (by decide) (by decide) (by decide)), trimmed]
  exact bareToken_append bare blank h

/-- A quoted string is cut off as a whole. -/
theorem cut_quoted (before behind : Written.Gap) (quote : Written.Quote)
    {inner tail rest : List Char} (inside : quote.mark ∉ inner) (h : Follows tail rest) :
    cut (before.text ++ (quote.mark :: (inner ++ [quote.mark]) ++ (behind.text ++ tail))) =
      (quote.mark :: (inner ++ [quote.mark]), rest) := by
  have noBlank : isBlank quote.mark = false := by cases quote <;> decide
  have whole : quote.mark :: (inner ++ [quote.mark]) ++ (behind.text ++ tail) =
      quote.mark :: (inner ++ quote.mark :: (behind.text ++ tail)) := by
    simp
  have found := quotedToken?_append inside behind h
  have trimmed : trimStart (before.text ++
      (quote.mark :: (inner ++ quote.mark :: (behind.text ++ tail)))) =
        quote.mark :: (inner ++ quote.mark :: (behind.text ++ tail)) := by
    rw [trimStart_append before.blank, trimStart_of_stops (stops_cons.2 noBlank)]
  rw [whole]
  unfold cut
  simp only [trimmed]
  cases quote with
  | single =>
    rw [Written.Quote.mark] at found ⊢
    simp [found]
  | double =>
    rw [Written.Quote.mark] at found ⊢
    have other : quotedToken? '\'' ('"' :: (inner ++ '"' :: (behind.text ++ tail))) = none :=
      quotedToken?_of_stops (stops_cons.2 (by decide))
    simp [found, other]

/-- Neither blanks nor a quote stand in front of a bracket: what opens with one is cut off by it. -/
theorem cut_of_region (before : Written.Gap) {opener : Char} {cs : List Char}
    {token : List Char × List Char} (bracket : isBracket opener = true)
    (found : (regionToken? '{' '}' (opener :: cs)).or (regionToken? '[' ']' (opener :: cs)) =
      some token) : cut (before.text ++ opener :: cs) = token := by
  have starts : ∀ p : Char → Bool, p opener = false → Stops p (opener :: cs) :=
    fun p none => stops_cons.2 none
  have other : ∀ quote : Char, isBracket quote = false → Stops (· == quote) (opener :: cs) :=
    fun quote free => starts _ (by simpa using ne_of_class bracket free)
  have noBlank : isBlank opener = false := by
    cases blank : isBlank opener with
    | false => rfl
    | true => exact absurd bracket (by simp [isBracket_of_isBlank blank])
  unfold cut
  simp only [trimStart_append before.blank, trimStart_of_stops (starts isBlank noBlank),
    quotedToken?_of_stops (other '\'' (by decide)), quotedToken?_of_stops (other '"' (by decide)),
    Option.none_or, found, Option.getD_some]

/-- An enclosed text in braces is cut off as a whole. -/
theorem cut_braced (before behind : Written.Gap) {cs tail rest : List Char} (enclosed : Enclosed cs)
    (h : Follows tail rest) :
    cut (before.text ++ (marked ('{' :: (cs ++ ['}'])) ++ (behind.text ++ tail))) =
      (marked ('{' :: (cs ++ ['}'])), rest) := by
  obtain ⟨inner, eq, avoids⟩ := enclosed.marked_braced
  have found := @regionToken?_append '{' '}' inner behind tail rest h (avoids _)
  rw [List.cons_append] at found
  rw [eq, List.append_assoc, List.append_assoc, List.cons_append]
  refine cut_of_region before (by decide) ?_
  rw [found, Option.some_or]

/-- An enclosed text in square brackets is too. -/
theorem cut_squared (before behind : Written.Gap) {cs tail rest : List Char}
    (enclosed : Enclosed cs) (h : Follows tail rest) :
    cut (before.text ++ (marked ('[' :: (cs ++ [']'])) ++ (behind.text ++ tail))) =
      (marked ('[' :: (cs ++ [']'])), rest) := by
  obtain ⟨inner, eq, avoids⟩ := enclosed.marked_squared
  have found := @regionToken?_append '[' ']' inner behind tail rest h (avoids _)
  rw [eq, List.append_assoc, List.append_assoc]
  refine cut_of_region before (by decide) ?_
  rw [regionToken?_of_stops (stops_cons.2 (by decide)), Option.none_or]
  exact found

/-- A list of which something is visible is not empty. -/
theorem readList_of_visible {cs : List Char} (visible : ∃ c ∈ cs, isBlank c = false) :
    readList cs = readMarked (markBrackets cs) := by
  obtain ⟨c, mem, solid⟩ := visible
  have filled : (trim cs).isEmpty = false := by
    simpa using List.ne_nil_of_mem (mem_trim solid mem)
  unfold readList
  rw [filled, if_neg Bool.false_ne_true]

theorem readMarked_nil : readMarked [] = [] := by
  rw [readMarked]
  rfl

end Slot

/-! ## 5. The value of a slot -/

namespace Written

/-- Quotes are not marked. -/
theorem marked_quoted (quote : Quote) {cs : List Char} (h : Enclosed cs) :
    marked (quote.mark :: (cs ++ [quote.mark])) = quote.mark :: (marked cs ++ [quote.mark]) := by
  have free : ∀ c ∈ [quote.mark], isBracket c = false := by simp [quote.isBracket_mark]
  have whole : quote.mark :: (cs ++ [quote.mark]) = [quote.mark] ++ (cs ++ [quote.mark]) := rfl
  rw [whole, (enclosed_of_free free).marked_append, h.marked_append, marked_of_free free]
  rfl

theorem mark_not_mem_marked (quote : Quote) {cs : List Char} (h : Enclosed cs)
    (free : quote.mark ∉ cs) : quote.mark ∉ marked cs := by
  intro mem
  rcases h.mem_of_mem_marked mem with inside | percent | digit
  · exact free inside
  · cases quote <;> exact absurd percent (by decide)
  · cases quote <;> exact absurd digit (by decide)

/-- The text of a list is an enclosed text in square brackets. -/
theorem text_array {depth : Nat} {items : List Value}
    (plain : (Value.array items).Plain EnclosedText depth) :
    ∃ cs, Enclosed cs ∧ Json.text (.array items) = '[' :: (cs ++ [']']) := by
  cases plain with
  | array plain =>
    refine ⟨Json.itemsText items, enclosed_itemsText fun v mem => enclosed_text (plain v mem), ?_⟩
    simp [Json.text]

/-- The text of an object is one in braces. -/
theorem text_object {depth : Nat} {fields : Fields}
    (plain : (Value.object fields).Plain EnclosedText depth) :
    ∃ cs, Enclosed cs ∧ Json.text (.object fields) = '{' :: (cs ++ ['}']) := by
  have colon : Enclosed [':'] := enclosed_singleton (by decide)
  cases plain with
  | object ordered admitted plain =>
    refine ⟨Json.fieldsText fields, enclosed_fieldsText fun m mem => ?_, by simp [Json.text]⟩
    exact (enclosed_stringText (admitted m mem)).append
      (colon.append (enclosed_text (plain m mem)))

/-- **A slot is cut off as a whole**, in front of what follows it. -/
theorem cut_print (a : Argument) {tail rest : List Char} (h : Slot.Follows tail rest) :
    Slot.cut (a.before.text ++ (marked a.item.print ++ (a.behind.text ++ tail))) =
      (marked a.item.print, rest) := by
  obtain ⟨before, item, behind⟩ := a
  have bare : ∀ word : List Char, (∀ c ∈ word, isBare c = true) →
      Slot.cut (before.text ++ (marked word ++ (behind.text ++ tail))) = (marked word, rest) := by
    intro word bare
    rw [marked_of_free fun c mem => isBracket_of_isBare (bare c mem)]
    exact Slot.cut_bare before behind bare h
  cases item with
  | unset => exact bare _ fun c no => absurd no List.not_mem_nil
  | null => exact bare _ (isBare_keyword "null" (by simp)).2
  | bool value =>
    cases value with
    | true => exact bare _ (isBare_keyword "true" (by simp)).2
    | false => exact bare _ (isBare_keyword "false" (by simp)).2
  | integer value low high => exact bare _ (isBare_integerText value)
  | quoted quote text free enclosed =>
    simp only [Item.print, marked_quoted quote enclosed]
    exact Slot.cut_quoted before behind quote (mark_not_mem_marked quote enclosed free) h
  | array depth items plain =>
    obtain ⟨cs, enclosed, whole⟩ := text_array plain
    simp only [Item.print, whole]
    exact Slot.cut_squared before behind enclosed h
  | object depth fields plain =>
    obtain ⟨cs, enclosed, whole⟩ := text_object plain
    simp only [Item.print, whole]
    exact Slot.cut_braced before behind enclosed h

/-! ### What is cut off -/

theorem trim_token {cs : List Char} (nonempty : cs ≠ []) (first : Stops isBlank cs)
    (last : ∀ c ∈ cs.getLast?, isBlank c = false) : trim cs = cs := by
  have whole := @trim_between [] cs [] (by simp) (by simp) nonempty first last
  simpa using whole

theorem getLast?_wrapped (opener closer : Char) (cs : List Char) :
    (opener :: (cs ++ [closer])).getLast? = some closer := by
  rw [← List.cons_append, List.getLast?_concat]

theorem trim_wrapped {opener closer : Char} (cs : List Char) (first : isBlank opener = false)
    (last : isBlank closer = false) :
    trim (opener :: (cs ++ [closer])) = opener :: (cs ++ [closer]) := by
  refine trim_token (List.cons_ne_nil _ _) (stops_cons.2 first) fun c mem => ?_
  rw [getLast?_wrapped] at mem
  cases mem
  exact last

/-- A token in quotes is the text between them, without marks. -/
theorem ofToken_quoted (quote : Quote) (inner : List Char) :
    Slot.ofToken (quote.mark :: (inner ++ [quote.mark])) =
      some (.ofChars (unmarkBrackets inner)) := by
  have noBlank : isBlank quote.mark = false := by cases quote <;> decide
  have quoted : (Slot.isQuoted '\'' (quote.mark :: (inner ++ [quote.mark])) ||
      Slot.isQuoted '"' (quote.mark :: (inner ++ [quote.mark]))) = true := by
    cases quote <;> simp [Slot.isQuoted, Quote.mark, getLast?_wrapped]
  unfold Slot.ofToken
  simp only [trim_wrapped _ noBlank noBlank, List.isEmpty_cons, quoted]
  simp

theorem literal_read?_of_json {cs : List Char} {v : Value} (reads : Json.read? cs = some v) :
    Literal.read? cs = some v := by
  rw [Literal.read?, reads]
  rfl

/-- A token in brackets is the value that is written there. -/
theorem ofToken_region {opener closer : Char} {inner cs : List Char} {v : Value} (h : Enclosed cs)
    (token : marked cs = [opener, '1', '%'] ++ (inner ++ ['%', '1', closer]))
    (region : (opener = '{' ∧ closer = '}') ∨ (opener = '[' ∧ closer = ']'))
    (reads : Literal.read? cs = some v) : Slot.ofToken (marked cs) = some v := by
  have wrapped : marked cs = opener :: ((['1', '%'] ++ (inner ++ ['%', '1'])) ++ [closer]) := by
    simp [token]
  have trimmed : trim (marked cs) = marked cs := by
    rw [wrapped]
    rcases region with ⟨rfl, rfl⟩ | ⟨rfl, rfl⟩
    · exact trim_wrapped _ (by decide) (by decide)
    · exact trim_wrapped _ (by decide) (by decide)
  have filled : (marked cs).isEmpty = false := by simp [wrapped]
  have unquoted : (Slot.isQuoted '\'' (marked cs) || Slot.isQuoted '"' (marked cs)) = false := by
    rw [wrapped]
    rcases region with ⟨rfl, rfl⟩ | ⟨rfl, rfl⟩
    · simp [Slot.isQuoted]
    · simp [Slot.isQuoted]
  have starts : (['{', '1', '%'].isPrefixOf (marked cs) ||
      ['[', '1', '%'].isPrefixOf (marked cs)) = true := by
    rw [wrapped]
    rcases region with ⟨rfl, rfl⟩ | ⟨rfl, rfl⟩
    · rfl
    · rfl
  unfold Slot.ofToken
  simp only [trimmed, filled, unquoted, starts, h.unmarkBrackets_marked, reads]
  rfl

/-- A token without quotes and brackets is a keyword, a number, or else a text. -/
theorem ofToken_bare {word : List Char} (nonempty : word ≠ [])
    (bare : ∀ c ∈ word, isBare c = true) : Slot.ofToken word =
      if word = "true".toList then some (.bool true)
      else if word = "false".toList then some (.bool false)
      else if word = "null".toList then some .null
      else some ((Slot.number? word).getD (.ofChars (unmarkBrackets word))) := by
  have trimmed : trim word = word := by
    refine trim_token nonempty (fun c first => ?_) fun c last => ?_
    · exact isBlank_of_isBare (bare c (List.mem_of_mem_head? first))
    · exact isBlank_of_isBare (bare c (List.mem_of_getLast? last))
  have filled : word.isEmpty = false := by simpa using nonempty
  have other : ∀ d, isBare d = false → word.head? ≠ some d := by
    intro d noBare first
    exact ne_of_class (bare d (List.mem_of_mem_head? first)) noBare rfl
  have unquoted : (Slot.isQuoted '\'' word || Slot.isQuoted '"' word) = false := by
    simp [Slot.isQuoted, other '\'' (by decide), other '"' (by decide)]
  have noRegion : (['{', '1', '%'].isPrefixOf word || ['[', '1', '%'].isPrefixOf word) = false := by
    cases word with
    | nil => rfl
    | cons c word =>
      have brace : c ≠ '{' := by simpa using other '{' (by decide)
      have square : c ≠ '[' := by simpa using other '[' (by decide)
      rw [List.isPrefixOf_cons_cons, List.isPrefixOf_cons_cons, beq_eq_false_iff_ne.2 brace.symm,
        beq_eq_false_iff_ne.2 square.symm]
      rfl
  unfold Slot.ofToken
  simp only [trimmed, filled, unquoted, noRegion]
  simp

/-- The numeral of an integer is no keyword. -/
theorem ofToken_numeral {i : Int} {v : Value} (reads : Slot.number? (Json.integerText i) = some v) :
    Slot.ofToken (Json.integerText i) = some v := by
  have nonempty : Json.integerText i ≠ [] := by simp [Json.integerText, decimalDigits_ne_nil]
  have other : ∀ c, c ≠ '-' → c.isDigit = false → ∀ word : List Char, c ∈ word →
      Json.integerText i ≠ word := by
    rintro c noSign noDigit word mem rfl
    rcases mem_integerText mem with sign | digit
    · exact noSign sign
    · rw [noDigit] at digit
      cases digit
  rw [ofToken_bare nonempty (isBare_integerText i),
    if_neg (other 't' (by decide) (by decide) _ (by simp)),
    if_neg (other 'f' (by decide) (by decide) _ (by simp)),
    if_neg (other 'n' (by decide) (by decide) _ (by simp)), reads]
  rfl

theorem ofToken_integerText {i : Int} (low : Binary64.leastInteger ≤ i)
    (high : i ≤ Binary64.greatestInteger) :
    Slot.ofToken (Json.integerText i) = some (.ofInt i) :=
  ofToken_numeral (number?_integerText low high)

theorem ofToken_marked {word : List Char} (bare : ∀ c ∈ word, isBare c = true) :
    Slot.ofToken (marked word) = Slot.ofToken word := by
  rw [marked_of_free fun c mem => isBracket_of_isBare (bare c mem)]

/-- **What is cut off has the value of the slot.** -/
theorem ofToken_token (i : Item) (reads : i.ReadsBack) :
    Slot.ofToken (marked i.print) = i.slot := by
  cases i with
  | unset => exact ofToken_marked fun c no => absurd no List.not_mem_nil
  | null =>
    obtain ⟨nonempty, bare⟩ := isBare_keyword "null" (by simp)
    exact (ofToken_marked bare).trans ((ofToken_bare nonempty bare).trans (by simp [Item.slot]))
  | bool value =>
    cases value with
    | true =>
      obtain ⟨nonempty, bare⟩ := isBare_keyword "true" (by simp)
      exact (ofToken_marked bare).trans ((ofToken_bare nonempty bare).trans (by simp [Item.slot]))
    | false =>
      obtain ⟨nonempty, bare⟩ := isBare_keyword "false" (by simp)
      exact (ofToken_marked bare).trans ((ofToken_bare nonempty bare).trans (by simp [Item.slot]))
  | integer value low high =>
    exact (ofToken_marked (isBare_integerText value)).trans (ofToken_integerText low high)
  | quoted quote text free enclosed =>
    simp only [Item.print, marked_quoted quote enclosed, ofToken_quoted,
      enclosed.unmarkBrackets_marked]
    simp [Item.slot, Value.ofChars]
  | array depth items plain =>
    obtain ⟨cs, enclosed, whole⟩ := text_array plain
    obtain ⟨inner, token, -⟩ := enclosed.marked_squared
    rw [← whole] at token
    exact ofToken_region (enclosed_text plain) token (Or.inr ⟨rfl, rfl⟩)
      (literal_read?_of_json reads)
  | object depth fields plain =>
    obtain ⟨cs, enclosed, whole⟩ := text_object plain
    obtain ⟨inner, token, -⟩ := enclosed.marked_braced
    rw [← whole] at token
    exact ofToken_region (enclosed_text plain) token (Or.inl ⟨rfl, rfl⟩)
      (literal_read?_of_json reads)

/-! ## 6. The whole list -/

/-- A slot that is set is written as something. -/
theorem Item.visible {i : Item} (isSet : i.slot ≠ none) : ∃ c ∈ i.print, isBlank c = false := by
  cases i with
  | unset => exact absurd rfl isSet
  | null => exact ⟨'n', by simp [print], by decide⟩
  | bool value =>
    cases value with
    | true => exact ⟨'t', by simp [print], by decide⟩
    | false => exact ⟨'f', by simp [print], by decide⟩
  | integer value low high =>
    cases word : Json.integerText value with
    | nil => simp [Json.integerText, decimalDigits_ne_nil] at word
    | cons c cs =>
      have inside : c ∈ Json.integerText value := word ▸ List.mem_cons_self ..
      exact ⟨c, inside, isBlank_of_isBare (isBare_integerText value c inside)⟩
  | quoted quote text free enclosed =>
    exact ⟨quote.mark, List.mem_cons_self .., by cases quote <;> decide⟩
  | array depth items plain =>
    obtain ⟨cs, -, whole⟩ := text_array plain
    exact ⟨'[', by simp [print, whole], by decide⟩
  | object depth fields plain =>
    obtain ⟨cs, -, whole⟩ := text_object plain
    exact ⟨'{', by simp [print, whole], by decide⟩

theorem mem_printSlots {as : List Argument} {a : Argument} (mem : a ∈ as) {c : Char}
    (inside : c ∈ a.item.print) : c ∈ printSlots as := by
  have here : c ∈ a.print := by simp [Argument.print, inside]
  induction as with
  | nil => exact absurd mem List.not_mem_nil
  | cons a' as ih =>
    cases as with
    | nil =>
      cases List.mem_singleton.1 mem
      exact here
    | cons a'' as =>
      rcases List.mem_cons.1 mem with rfl | later
      · exact List.mem_append_left _ here
      · exact List.mem_append_right _ (List.mem_cons_of_mem _ (ih later))

/-- A text that is cut into a slot and a rest. -/
theorem readMarked_of_cut {cs token rest : List Char} (nonempty : cs ≠ [])
    (cutOff : Slot.cut cs = (token, rest)) :
    Slot.readMarked cs = Slot.ofToken token :: Slot.readMarked rest := by
  rw [Slot.readMarked, dif_neg nonempty, cutOff]

/-- **Slot by slot the list is read back**, if its last slot is set. -/
theorem readMarked_printSlots {as : List Argument} (reads : ∀ a ∈ as, a.item.ReadsBack)
    (last : ∀ a ∈ as.getLast?, a.item.slot ≠ none) :
    Slot.readMarked (marked (printSlots as)) = as.map (·.item.slot) := by
  induction as with
  | nil =>
    rw [printSlots, marked_nil, Slot.readMarked_nil]
    rfl
  | cons a as ih =>
    obtain ⟨first, reads⟩ := List.forall_mem_cons.1 reads
    cases as with
    | nil =>
      have ends := cut_print a (Or.inr ⟨rfl, rfl⟩ : Slot.Follows [] [])
      rw [List.append_nil, ← a.marked_print] at ends
      obtain ⟨c, inside, -⟩ := Item.visible (last a rfl)
      have printed : c ∈ a.print := mem_printSlots (List.mem_singleton_self a) inside
      have nonempty := a.enclosed_print.marked_ne_nil (List.ne_nil_of_mem printed)
      rw [printSlots, readMarked_of_cut nonempty ends, ofToken_token a.item first,
        Slot.readMarked_nil]
      rfl
    | cons a' as =>
      have last' : ∀ b ∈ (a' :: as).getLast?, b.item.slot ≠ none := by
        simpa [List.getLast?_cons_cons] using last
      have goesOn := cut_print a (Or.inl rfl : Slot.Follows (',' :: marked (printSlots (a' :: as)))
        (marked (printSlots (a' :: as))))
      rw [← marked_printSlots] at goesOn
      have nonempty : marked (printSlots (a :: a' :: as)) ≠ [] := by
        rw [marked_printSlots]
        simp
      rw [readMarked_of_cut nonempty goesOn, ofToken_token a.item first, ih reads last']
      rfl

/-- **An argument list is read back from its text**: any slots, the last one set, with any blanks
around them.  All that this asks of JSON is that the lists and objects are read back from their
texts; and up to the depth that is read they are. -/
theorem readList_printSlots (as : List Argument)
    (set : ∃ a ∈ as.getLast?, a.item.slot ≠ none) :
    ((∀ a ∈ as, a.item.ReadsBack) → Slot.readList (printSlots as) = as.map (·.item.slot)) ∧
      ∀ a ∈ as, a.item.depth ≤ Json.depthLimit → a.item.ReadsBack := by
  refine ⟨fun reads => ?_, fun a _ le => a.item.readsBack le⟩
  obtain ⟨a, last, isSet⟩ := set
  obtain ⟨c, inside, visible⟩ := Item.visible isSet
  have seen : c ∈ trim (printSlots as) :=
    mem_trim visible (mem_printSlots (List.mem_of_getLast? last) inside)
  have filled : (trim (printSlots as)).isEmpty = false := by
    simpa using List.ne_nil_of_mem seen
  unfold Slot.readList
  rw [filled, if_neg Bool.false_ne_true, (enclosed_printSlots as).markBrackets_eq]
  refine readMarked_printSlots reads fun b last' => ?_
  cases last.symm.trans last'
  exact isSet

/-- An object with a list in it, and a key that looks as if it were marked. -/
theorem plain_nested : (Value.object [("\x7b1%\x7d", .array [.ofInt 1, .array []])]).Plain
    EnclosedText 3 := by
  have key : EnclosedText "\x7b1%\x7d" := ⟨by decide +kernel, by decide +kernel⟩
  have inner : (Value.array [.ofInt 1, .array []]).Plain EnclosedText 2 := by
    refine .array fun v mem => ?_
    simp only [List.mem_cons, List.not_mem_nil, or_false] at mem
    rcases mem with rfl | rfl
    · exact .integer 1 (by decide +kernel)
    · exact .array fun v no => absurd no List.not_mem_nil
  refine .object (List.pairwise_singleton _ _) (fun m mem => ?_) fun m mem => ?_
  · cases List.mem_singleton.1 mem
    exact key
  · cases List.mem_singleton.1 mem
    exact inner

/-- A list with a slot of every kind.  In its string the two kinds of brackets cross, and a percent
sign and a digit stand in front of one of them. -/
def mixed : List Argument := [
  { before := .space, item := .unset },
  { item := .quoted .single "50%1\x7b[\x7d],\"" (by decide +kernel)
      ⟨by decide +kernel, by decide +kernel⟩, behind := { text := ['\t'] } },
  { before := .space, item := .integer (-7) (by decide +kernel) (by decide +kernel) },
  { item := .null },
  { before := { text := ['\n'] }, item := .object 3 _ plain_nested, behind := .space }]

/-- It is read back, and neither the comma in the string nor the one in the object cuts a slot. -/
theorem readList_mixed :
    printSlots mixed = " ,'50%1\x7b[\x7d],\"'\t, -7,null,\n\x7b\"\x7b1%\x7d\":[1,[]]\x7d ".toList ∧
      Slot.readList (printSlots mixed) = [none, some (.string "50%1\x7b[\x7d],\""),
        some (.ofInt (-7)), some .null,
        some (.object [("\x7b1%\x7d", .array [.ofInt 1, .array []])])] := by
  have shallow : ∀ a ∈ mixed, a.item.depth ≤ Json.depthLimit := by
    unfold mixed
    decide +kernel
  have set : ∃ a ∈ mixed.getLast?, a.item.slot ≠ none := ⟨_, rfl, fun no => nomatch no⟩
  obtain ⟨back, reads⟩ := readList_printSlots mixed set
  exact ⟨by decide +kernel, back fun a mem => reads a mem (shallow a mem)⟩

end Written

end Stencil
