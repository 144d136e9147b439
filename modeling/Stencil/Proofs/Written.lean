/-
# Written templates

Templates as an author puts them together: placeholders with all their blanks, and the literal text
between them.  Each part carries what makes it one, so that no written template is malformed, and
`print` gives its text.  What is to be read from a template is said beside it (`locatedFrom`).

This file reads one placeholder: `recognise?_print` says that the grammar recognises a written
placeholder as a whole, in front of any text.

A text can often be read in several ways, and what tells them apart is the character that a part
stops at.  So the lemmas on parts ask only for that of the text behind them (`Stops`).
-/
import Mathlib
import Stencil.Template.Piece

namespace Stencil

open Stencil.Text

/-! ## 1. Runs of a class of characters -/

theorem ne_of_class {p : Char → Bool} {c d : Char} (inside : p c = true) (outside : p d = false) :
    c ≠ d := by
  rintro rfl
  rw [outside] at inside
  cases inside

/-- A text that does not start with a character of a class. -/
def Stops (p : Char → Bool) (cs : List Char) : Prop := ∀ c ∈ cs.head?, p c = false

theorem stops_cons {p : Char → Bool} {c : Char} {cs : List Char} :
    Stops p (c :: cs) ↔ p c = false := by
  simp [Stops]

theorem Stops.append {p : Char → Bool} {cs : List Char} (nonempty : cs ≠ []) (h : Stops p cs)
    (more : List Char) : Stops p (cs ++ more) := by
  cases cs with
  | nil => exact absurd rfl nonempty
  | cons c cs => exact stops_cons.2 (stops_cons.1 h)

theorem dropWhile_of_stops {p : Char → Bool} {cs : List Char} (h : Stops p cs) :
    cs.dropWhile p = cs := by
  cases cs with
  | nil => rfl
  | cons c cs => simp [stops_cons.1 h]

theorem takeWhile_append_of_stops {p : Char → Bool} {run cs : List Char}
    (inside : ∀ c ∈ run, p c = true) (h : Stops p cs) : (run ++ cs).takeWhile p = run := by
  rw [List.takeWhile_append_of_pos inside]
  cases cs with
  | nil => simp
  | cons c cs => simp [stops_cons.1 h]

theorem drop_takeWhile (p : Char → Bool) (cs : List Char) :
    cs.drop (cs.takeWhile p).length = cs.dropWhile p := by
  have whole := congrArg (List.drop (cs.takeWhile p).length)
    (List.takeWhile_append_dropWhile (p := p) (l := cs))
  rw [List.drop_left] at whole
  exact whole.symm

theorem trimStart_append {gap : List Char} (blank : ∀ c ∈ gap, isBlank c = true)
    (cs : List Char) : trimStart (gap ++ cs) = trimStart cs :=
  List.dropWhile_append_of_pos blank

theorem trimStart_of_stops {cs : List Char} (h : Stops isBlank cs) : trimStart cs = cs :=
  dropWhile_of_stops h

theorem trimEnd_append {gap : List Char} (blank : ∀ c ∈ gap, isBlank c = true)
    (cs : List Char) : trimEnd (cs ++ gap) = trimEnd cs := by
  unfold trimEnd
  rw [List.reverse_append, List.dropWhile_append_of_pos (by simpa using blank)]

theorem trimEnd_of_last {cs : List Char} (h : ∀ c ∈ cs.getLast?, isBlank c = false) :
    trimEnd cs = cs := by
  have stops : Stops isBlank cs.reverse := by simpa [Stops] using h
  unfold trimEnd
  rw [dropWhile_of_stops stops, List.reverse_reverse]

/-- Trimming takes off the blanks around a text with no blanks at its ends. -/
theorem trim_between {before core behind : List Char}
    (blank : ∀ c ∈ before, isBlank c = true) (blank' : ∀ c ∈ behind, isBlank c = true)
    (nonempty : core ≠ []) (first : Stops isBlank core)
    (last : ∀ c ∈ core.getLast?, isBlank c = false) : trim (before ++ (core ++ behind)) = core := by
  unfold trim
  rw [trimStart_append blank, trimStart_of_stops (first.append nonempty behind),
    trimEnd_append blank', trimEnd_of_last last]

theorem mem_dropWhile {p : Char → Bool} {c : Char} {cs : List Char} (other : p c = false)
    (h : c ∈ cs) :
    c ∈ cs.dropWhile p := by
  induction cs with
  | nil => exact h
  | cons d cs ih =>
    rw [List.dropWhile_cons]
    split
    · rename_i dropped
      rcases List.mem_cons.1 h with same | later
      · exact absurd same.symm (ne_of_class dropped other)
      · exact ih later
    · exact h

theorem mem_trim {c : Char} {cs : List Char} (other : isBlank c = false) (h : c ∈ cs) :
    c ∈ trim cs := by
  have started : c ∈ (trimStart cs).reverse := List.mem_reverse.2 (mem_dropWhile other h)
  exact List.mem_reverse.2 (mem_dropWhile other started)

theorem isBlank_of_isWord {c : Char} (h : Grammar.isWord c = true) : isBlank c = false := by
  have bounds : (48 ≤ c.toNat ∧ c.toNat ≤ 57) ∨ (65 ≤ c.toNat ∧ c.toNat ≤ 90) ∨
      (97 ≤ c.toNat ∧ c.toNat ≤ 122) ∨ c.toNat = 95 := by
    simp only [Grammar.isWord, Char.isAlphanum, Char.isAlpha, Char.isUpper, Char.isLower,
      Char.isDigit, Bool.or_eq_true, Bool.and_eq_true, decide_eq_true_eq, beq_iff_eq] at h
    rcases h with ((h | h) | h) | rfl
    · exact .inr (.inl h)
    · exact .inr (.inr (.inl h))
    · exact .inl h
    · exact .inr (.inr (.inr rfl))
  refine Bool.eq_false_iff.2 fun blank => ?_
  have ordered : Ranges.Ordered blankRanges := by
    unfold Ranges.Ordered
    decide
  obtain ⟨r, mem, low, high⟩ := (Ranges.covers_iff ordered (by decide) c.toNat).1 blank
  simp only [blankRanges, List.mem_cons, List.not_mem_nil, or_false] at mem
  rcases mem with rfl | rfl | rfl | rfl | rfl | rfl | rfl | rfl | rfl | rfl <;>
    simp only at low high <;> omega

theorem isRun_of_isWord {c : Char} (h : Grammar.isWord c = true) : Grammar.isRun c = true := by
  have other : ∀ d, Grammar.isWord d = false → c ≠ d := fun d => ne_of_class h
  simp [Grammar.isRun, isBlank_of_isWord h, other '{' (by decide), other '}' (by decide),
    other '|' (by decide)]

theorem isBlank_of_isRun {c : Char} (h : Grammar.isRun c = true) : isBlank c = false := by
  simp only [Grammar.isRun, Bool.and_eq_true, Bool.not_eq_true'] at h
  exact h.1.1.1

/-- Blanks stop what holds no blank. -/
theorem Stops.append_blanks {p : Char → Bool} {gap cs : List Char}
    (blank : ∀ c ∈ gap, isBlank c = true) (other : ∀ c, isBlank c = true → p c = false)
    (h : Stops p cs) : Stops p (gap ++ cs) := by
  cases gap with
  | nil => exact h
  | cons c gap => exact stops_cons.2 (other c (blank c (List.mem_cons_self ..)))

theorem isRun_of_isBlank (c : Char) (h : isBlank c = true) : Grammar.isRun c = false := by
  simp [Grammar.isRun, h]

theorem isWord_of_isBlank (c : Char) (h : isBlank c = true) : Grammar.isWord c = false := by
  refine Bool.eq_false_iff.2 fun word => ?_
  rw [isBlank_of_isWord word] at h
  cases h

/-! ## 2. Written templates -/

namespace Written

/-- Blanks, or nothing. -/
structure Gap where
  text : List Char
  blank : ∀ c ∈ text, isBlank c = true := by
    exact List.all_eq_true.1 (by decide +kernel)

/-- No blanks. -/
def Gap.none : Gap := { text := [] }

/-- One blank. -/
def Gap.space : Gap := { text := [' '] }

/-- The name of a value or of a filter. -/
structure Word where
  text : List Char
  nonempty : text ≠ [] := by decide +kernel
  word : ∀ c ∈ text, Grammar.isWord c = true := by
    exact List.all_eq_true.1 (by decide +kernel)

/-- A leading or trailing literal. -/
structure Run where
  text : List Char
  nonempty : text ≠ [] := by decide +kernel
  run : ∀ c ∈ text, Grammar.isRun c = true := by
    exact List.all_eq_true.1 (by decide +kernel)

/-- The two kinds of quotes. -/
inductive Quote
  | single
  | double

/-- The character of a quote. -/
def Quote.mark : Quote → Char
  | single => '\''
  | double => '"'

/-- A character that arguments hold outside of quotes. -/
def isPlain (c : Char) : Bool := c != '(' && c != ')' && c != '\'' && c != '"'

/-- The text between the parentheses of a filter: characters and quoted strings. -/
inductive Arguments
  | nil
  | plain (c : Char) (free : isPlain c = true) (later : Arguments)
  | quoted (quote : Quote) (text : List Char) (inside : quote.mark ∉ text) (later : Arguments)

def Arguments.print : Arguments → List Char
  | nil => []
  | plain c _ later => c :: later.print
  | quoted quote text _ later => quote.mark :: (text ++ quote.mark :: later.print)

/-- A filter, with the blanks in front of its bar and behind it.  Without parentheses it has no
arguments; with them, blanks may stand in front of those. -/
structure Filter where
  before : Gap
  behind : Gap
  word : Word
  arguments : Option (Gap × Arguments)

/-- A filter without its bar and the blanks around that. -/
def Filter.printCall (f : Filter) : List Char :=
  match f.arguments with
  | none => f.word.text
  | some (gap, arguments) => f.word.text ++ (gap.text ++ '(' :: (arguments.print ++ [')']))

def Filter.print (f : Filter) : List Char :=
  f.before.text ++ '|' :: (f.behind.text ++ f.printCall)

/-- The call that a filter writes. -/
def Filter.call (f : Filter) : Call where
  name := String.ofList f.word.text
  args :=
    match f.arguments with
    | none => []
    | some (_, arguments) => Slot.readList arguments.print

def printFilters (fs : List Filter) : List Char := fs.flatMap Filter.print

/-- A trailing literal and the blanks that part it from what stands before. -/
structure Trailing where
  gap : Gap
  run : Run
  apart : gap.text ≠ [] := by decide +kernel

/-- The end of a placeholder, from its trailing literal on. -/
def printEnd (trailing : Option Trailing) (behind : Gap) : List Char :=
  match trailing with
  | none => behind.text ++ ['}']
  | some t => t.gap.text ++ (t.run.text ++ (behind.text ++ ['}']))

/-- The text of a trailing literal. -/
def trailingText (trailing : Option Trailing) : List Char :=
  (trailing.map fun t => t.run.text).getD []

/-- A trailing literal is not read as the arguments of the last filter. -/
def Apart (fs : List Filter) (trailing : Option Trailing) : Prop :=
  ∀ f ∈ fs.getLast?, f.arguments = none → ∀ t ∈ trailing, t.run.text.head? ≠ some '('

/-- A placeholder as it is written.  A leading literal is no word, and a blank ends it. -/
structure Placeholder where
  leading : Option Run
  before : Gap
  name : Word
  filters : List Filter
  trailing : Option Trailing
  behind : Gap
  noWord : ∀ r ∈ leading, ∃ c ∈ r.text, Grammar.isWord c = false
  parted : leading.isSome → before.text ≠ []
  apart : Apart filters trailing

/-- The text of a leading literal. -/
def Placeholder.leadingText (p : Placeholder) : List Char :=
  (p.leading.map Run.text).getD []

def Placeholder.print (p : Placeholder) : List Char :=
  '{' :: (p.leadingText ++ (p.before.text ++ (p.name.text ++ (printFilters p.filters ++
    printEnd p.trailing p.behind))))

/-- What is to be read from a placeholder at a place of a template. -/
def Placeholder.located (p : Placeholder) (start : Nat) : Located where
  name := String.ofList p.name.text
  leading := String.ofList p.leadingText
  trailing := String.ofList (trailingText p.trailing)
  chain := p.filters.map Filter.call
  matched := String.ofList p.print
  start := start
  stop := start + byteLength p.print

/-- Literal text between placeholders.  It opens none itself, and it does not hide the next one. -/
structure Literal where
  text : List Char
  closed : '{' ∉ text := by decide +kernel
  unescaping : text.getLast? ≠ some '\\' := by decide +kernel

/-- A template: placeholders, each behind some literal text, and more of that at the end. -/
structure Template where
  parts : List (Literal × Placeholder)
  last : Literal

def printParts (parts : List (Literal × Placeholder)) : List Char :=
  parts.flatMap fun part => part.1.text ++ part.2.print

def Template.print (t : Template) : List Char := printParts t.parts ++ t.last.text

/-- What is to be read from parts that start at a place of a template. -/
def locatedFrom (start : Nat) : List (Literal × Placeholder) → List Located
  | [] => []
  | (literal, p) :: later =>
    let here := start + byteLength literal.text
    p.located here :: locatedFrom (here + byteLength p.print) later

/-! ## 3. The end of a placeholder -/

variable {rest : List Char}

theorem close?_append {gap : List Char} (blank : ∀ c ∈ gap, isBlank c = true) :
    Grammar.close? (gap ++ '}' :: rest) = some rest := by
  have brace : Stops isBlank ('}' :: rest) := stops_cons.2 (by decide)
  simp only [Grammar.close?, trimStart_append blank, trimStart_of_stops brace]

theorem stops_behind {p : Char → Bool} (behind : Gap) (other : ∀ c, isBlank c = true → p c = false)
    (brace : p '}' = false) : Stops p (behind.text ++ '}' :: rest) :=
  (stops_cons.2 brace).append_blanks behind.blank other

theorem Run.stops (r : Run) : Stops isBlank r.text := fun c first =>
  isBlank_of_isRun (r.run c (List.mem_of_mem_head? first))

theorem trailing?_append (t : Trailing) (behind : Gap) :
    Grammar.trailing? (t.gap.text ++ (t.run.text ++ (behind.text ++ '}' :: rest))) =
      some (t.run.text, rest) := by
  have inner : trimStart (t.gap.text ++ (t.run.text ++ (behind.text ++ '}' :: rest))) =
      t.run.text ++ (behind.text ++ '}' :: rest) := by
    rw [trimStart_append t.gap.blank, trimStart_of_stops (t.run.stops.append t.run.nonempty _)]
  have run : (t.run.text ++ (behind.text ++ '}' :: rest)).takeWhile Grammar.isRun = t.run.text :=
    takeWhile_append_of_stops t.run.run (stops_behind behind isRun_of_isBlank (by decide))
  have gap : 0 < t.gap.text.length := List.length_pos_iff.2 t.apart
  unfold Grammar.trailing?
  simp only [inner, run, List.drop_left, close?_append behind.blank, Option.map_some]
  refine if_neg ?_
  simp only [Bool.or_eq_true, decide_eq_true_eq, List.isEmpty_iff, t.run.nonempty, or_false,
    List.length_append]
  omega

theorem trailing?_close (behind : Gap) :
    Grammar.trailing? (behind.text ++ '}' :: rest) = none := by
  have brace : Stops isBlank ('}' :: rest) := stops_cons.2 (by decide)
  unfold Grammar.trailing?
  simp [trimStart_append behind.blank, trimStart_of_stops brace, Grammar.isRun]

theorem ending?_printEnd (trailing : Option Trailing) (behind : Gap) :
    Grammar.ending? (printEnd trailing behind ++ rest) = some (trailingText trailing, rest) := by
  unfold Grammar.ending? printEnd
  cases trailing with
  | none => simp [trailing?_close, close?_append behind.blank, trailingText]
  | some t => simp [trailing?_append, trailingText]

/-! ## 4. The filters of a placeholder -/

theorem argumentsEnd?_quoted {q : Char} {text : List Char} (inside : q ∉ text) :
    Grammar.argumentsEnd? (some q) (text ++ q :: rest) = Grammar.argumentsEnd? none rest := by
  induction text with
  | nil => simp [Grammar.argumentsEnd?]
  | cons c text ih =>
    simp only [List.mem_cons, not_or] at inside
    simp [Grammar.argumentsEnd?, Ne.symm inside.1, ih inside.2]

theorem argumentsEnd?_print (arguments : Arguments) :
    Grammar.argumentsEnd? none (arguments.print ++ ')' :: rest) = some rest := by
  induction arguments with
  | nil => simp [Arguments.print, Grammar.argumentsEnd?]
  | plain c free later ih =>
    simp only [isPlain, Bool.and_eq_true, bne_iff_ne] at free
    simp [Arguments.print, Grammar.argumentsEnd?, free, ih]
  | quoted quote text inside later ih =>
    cases quote <;>
      simpa [Arguments.print, Grammar.argumentsEnd?, Quote.mark] using
        (argumentsEnd?_quoted inside).trans ih

theorem Word.stops (w : Word) : Stops isBlank w.text := fun c first =>
  isBlank_of_isWord (w.word c (List.mem_of_mem_head? first))

theorem pastWord_append (gap : Gap) (w : Word) (stops : Stops Grammar.isWord rest) :
    Grammar.pastWord (gap.text ++ (w.text ++ rest)) = rest := by
  have inner : trimStart (gap.text ++ (w.text ++ rest)) = w.text ++ rest := by
    rw [trimStart_append gap.blank, trimStart_of_stops (w.stops.append w.nonempty _)]
  unfold Grammar.pastWord
  simp only [inner, takeWhile_append_of_stops w.word stops, List.drop_left]
  exact if_neg (by simpa using w.nonempty)

section
variable {cs behind inner after : List Char} {tail : Grammar.Tail}

theorem tail?_of_ending (stops : Stops (· == '|') (trimStart cs)) :
    Grammar.tail? cs = (Grammar.ending? cs).map fun (run, rest) => ⟨cs, run, rest⟩ := by
  rw [Grammar.tail?]
  split
  · rename_i bar
    rw [bar] at stops
    exact absurd (stops_cons.1 stops) (by decide)
  · rfl

/-- The tail of a text in which arguments follow the word of a filter. -/
def withArguments? (behind : List Char) : Option Grammar.Tail :=
  match trimStart (Grammar.pastWord behind) with
  | '(' :: inner => (Grammar.argumentsEnd? none inner).bind Grammar.tail?
  | _ => none

theorem withArguments?_of_stops
    (stops : Stops (· == '(') (trimStart (Grammar.pastWord behind))) :
    withArguments? behind = none := by
  unfold withArguments?
  split
  · rename_i paren
    rw [paren] at stops
    exact absurd (stops_cons.1 stops) (by decide)
  · rfl

theorem tail?_of_bar (bar : trimStart cs = '|' :: behind) :
    Grammar.tail? cs = (withArguments? behind).or ((Grammar.tail? (Grammar.pastWord behind)).or
      ((Grammar.trailing? behind).map fun (run, rest) => ⟨behind, run, rest⟩)) := by
  rw [Grammar.tail?]
  split
  · rename_i behind' bar'
    cases bar.symm.trans bar'
    simp only
    split
    · rename_i tail taken
      split at taken
      · rename_i inner paren
        split at taken
        · rename_i after closed
          simp only [withArguments?, paren, closed, Option.bind_some, taken, Option.some_or]
        · cases taken
      · cases taken
    · rename_i missing
      have none : withArguments? behind = none := by
        split at missing
        · rename_i inner paren
          simp only [withArguments?, paren]
          split at missing
          · rename_i after closed
            rw [closed, Option.bind_some, missing]
          · rename_i unclosed
            rw [unclosed, Option.bind_none]
        · rename_i other
          unfold withArguments?
          split
          · exact absurd ‹_› (other _)
          · rfl
      rw [none]
      cases Grammar.tail? (Grammar.pastWord behind) <;> rfl
  · rename_i other
    exact absurd bar (other behind)

end

theorem stops_printEnd {p : Char → Bool} (trailing : Option Trailing) (behind : Gap)
    (other : ∀ c, isBlank c = true → p c = false) (brace : p '}' = false) :
    Stops p (printEnd trailing behind ++ rest) := by
  cases trailing with
  | none => simpa [printEnd] using stops_behind behind other brace
  | some t =>
    have stops : Stops p t.gap.text := fun c first =>
      other c (t.gap.blank c (List.mem_of_mem_head? first))
    simpa [printEnd] using stops.append t.apart _

/-- What follows a word without arguments does not go on with it. -/
theorem stops_printFilters {p : Char → Bool} (fs : List Filter) (trailing : Option Trailing)
    (behind : Gap) (other : ∀ c, isBlank c = true → p c = false) (bar : p '|' = false)
    (brace : p '}' = false) : Stops p (printFilters fs ++ (printEnd trailing behind ++ rest)) := by
  cases fs with
  | nil => exact stops_printEnd trailing behind other brace
  | cons f fs =>
    simp only [printFilters, List.flatMap_cons, Filter.print, List.append_assoc, List.cons_append]
    exact (stops_cons.2 bar).append_blanks f.before.blank other

theorem stops_trimStart_printEnd {p : Char → Bool} {trailing : Option Trailing} (behind : Gap)
    (brace : p '}' = false) (run : ∀ t ∈ trailing, Stops p t.run.text) :
    Stops p (trimStart (printEnd trailing behind ++ rest)) := by
  have closing : Stops isBlank ('}' :: rest) := stops_cons.2 (by decide)
  cases trailing with
  | none =>
    simp only [printEnd, List.append_assoc, List.cons_append, List.nil_append]
    rw [trimStart_append behind.blank, trimStart_of_stops closing]
    exact stops_cons.2 brace
  | some t =>
    simp only [printEnd, List.append_assoc, List.cons_append, List.nil_append]
    rw [trimStart_append t.gap.blank, trimStart_of_stops (t.run.stops.append t.run.nonempty _)]
    exact (run t rfl).append t.run.nonempty _

/-- Behind a filter without arguments no parenthesis follows. -/
theorem stops_paren {fs : List Filter} {f : Filter} {trailing : Option Trailing} (behind : Gap)
    (apart : Apart (f :: fs) trailing) (bare : f.arguments = none) :
    Stops (· == '(') (trimStart (printFilters fs ++ (printEnd trailing behind ++ rest))) := by
  cases fs with
  | nil =>
    refine stops_trimStart_printEnd behind (by decide) fun t supplied c first => ?_
    have := apart f rfl bare t supplied
    rw [first] at this
    simpa using this
  | cons g fs =>
    have bar : ∀ cs, Stops isBlank ('|' :: cs) := fun cs => stops_cons.2 (by decide)
    simp only [printFilters, List.flatMap_cons, Filter.print, List.append_assoc, List.cons_append]
    rw [trimStart_append g.before.blank, trimStart_of_stops (bar _)]
    exact stops_cons.2 (by decide)

theorem Apart.tail {fs : List Filter} {f : Filter} {trailing : Option Trailing}
    (apart : Apart (f :: fs) trailing) : Apart fs trailing := by
  intro g last
  cases fs with
  | nil => cases last
  | cons h fs => exact apart g (by simpa using last)

/-- **The filters and the end of a placeholder are read as they were written.** -/
theorem tail?_printFilters {fs : List Filter} {trailing : Option Trailing} (behind : Gap)
    (apart : Apart fs trailing) :
    Grammar.tail? (printFilters fs ++ (printEnd trailing behind ++ rest)) =
      some ⟨printEnd trailing behind ++ rest, trailingText trailing, rest⟩ := by
  induction fs with
  | nil =>
    have noBar : Stops (· == '|') (trimStart (printEnd trailing behind ++ rest)) := by
      refine stops_trimStart_printEnd behind (by decide) fun t supplied c first => ?_
      have run := t.run.run c (List.mem_of_mem_head? first)
      simp only [Grammar.isRun, Bool.and_eq_true, bne_iff_ne] at run
      simpa using run.2
    exact (tail?_of_ending noBar).trans (by rw [ending?_printEnd]; rfl)
  | cons f fs ih =>
    have later := ih apart.tail
    have stops := @stops_printFilters rest Grammar.isWord fs trailing behind isWord_of_isBlank
      (by decide) (by decide)
    have opening : ∀ cs, Stops isBlank ('|' :: cs) := fun cs => stops_cons.2 (by decide)
    have bar : trimStart (printFilters (f :: fs) ++ (printEnd trailing behind ++ rest)) =
        '|' :: (f.behind.text ++ (f.printCall ++
          (printFilters fs ++ (printEnd trailing behind ++ rest)))) := by
      simp only [printFilters, List.flatMap_cons, Filter.print, List.append_assoc,
        List.cons_append]
      rw [trimStart_append f.before.blank, trimStart_of_stops (opening _)]
    rw [tail?_of_bar bar]
    have nonParen := @stops_paren rest fs f trailing behind apart
    generalize printFilters fs ++ (printEnd trailing behind ++ rest) = after at *
    cases written : f.arguments with
    | none =>
      have past : Grammar.pastWord (f.behind.text ++ (f.printCall ++ after)) = after := by
        simp only [Filter.printCall, written]
        exact pastWord_append f.behind f.word stops
      have bare : withArguments? (f.behind.text ++ (f.printCall ++ after)) = none :=
        withArguments?_of_stops (past.symm ▸ nonParen written)
      rw [bare, past, later]
      rfl
    | some pair =>
      obtain ⟨gap, arguments⟩ := pair
      have shape : f.printCall ++ after =
          f.word.text ++ (gap.text ++ '(' :: (arguments.print ++ ')' :: after)) := by
        simp [Filter.printCall, written]
      have paren : Stops Grammar.isWord (gap.text ++ '(' :: (arguments.print ++ ')' :: after)) :=
        (stops_cons.2 (by decide)).append_blanks gap.blank isWord_of_isBlank
      have opening : Stops isBlank ('(' :: (arguments.print ++ ')' :: after)) :=
        stops_cons.2 (by decide)
      have taken : withArguments? (f.behind.text ++ (f.printCall ++ after)) =
          Grammar.tail? after := by
        unfold withArguments?
        rw [shape, pastWord_append f.behind f.word paren, trimStart_append gap.blank,
          trimStart_of_stops opening]
        simp only [argumentsEnd?_print, Option.bind_some]
      rw [taken, later]
      rfl

/-! ## 5. A placeholder -/

/-- The parts of a placeholder, its filters in one piece. -/
def Placeholder.parts (p : Placeholder) : Grammar.Parts where
  leading := p.leadingText
  name := p.name.text
  filters := trim (printFilters p.filters)
  trailing := trailingText p.trailing

/-- What stands in a placeholder from its name on. -/
def Placeholder.printBody (p : Placeholder) : List Char :=
  p.name.text ++ (printFilters p.filters ++ printEnd p.trailing p.behind)

theorem body?_append (p : Placeholder) {gap : List Char} (blank : ∀ c ∈ gap, isBlank c = true) :
    Grammar.body? p.leadingText (gap ++ (p.printBody ++ rest)) = some (p.parts, rest) := by
  have stops := @stops_printFilters rest Grammar.isWord p.filters p.trailing p.behind
    isWord_of_isBlank (by decide) (by decide)
  have inner : trimStart (gap ++ (p.printBody ++ rest)) = p.name.text ++
      (printFilters p.filters ++ (printEnd p.trailing p.behind ++ rest)) := by
    simp only [Placeholder.printBody, List.append_assoc]
    rw [trimStart_append blank, trimStart_of_stops (p.name.stops.append p.name.nonempty _)]
  have name := takeWhile_append_of_stops p.name.word stops
  have nonempty : ¬ p.name.text.isEmpty = true := by simpa using p.name.nonempty
  unfold Grammar.body?
  simp only [inner, name, if_neg nonempty, List.drop_left, tail?_printFilters p.behind p.apart,
    List.length_append, Nat.add_sub_cancel, List.take_left]
  rfl

/-- What touches the opening brace is a leading literal unless it is a word. -/
theorem behindBrace?_of_word (gap : Gap) {name : List Char} {cs : List Char}
    (isName : ∀ c ∈ name, Grammar.isWord c = true) (stops : Stops Grammar.isRun cs) :
    Grammar.behindBrace? (gap.text ++ (name ++ cs)) =
      Grammar.body? [] (gap.text ++ (name ++ cs)) := by
  refine if_pos (List.all_eq_true.2 ?_)
  obtain ⟨text, blank⟩ := gap
  cases text with
  | nil =>
    have run : ∀ c ∈ name, Grammar.isRun c = true := fun c mem => isRun_of_isWord (isName c mem)
    rw [List.nil_append, takeWhile_append_of_stops run stops]
    exact isName
  | cons c text =>
    have other : Grammar.isRun c = false := isRun_of_isBlank c (blank c (List.mem_cons_self ..))
    simp [other]

theorem behindBrace?_of_run {r : Run} (noWord : ∃ c ∈ r.text, Grammar.isWord c = false)
    {gap : Gap} (apart : gap.text ≠ []) (cs : List Char) :
    Grammar.behindBrace? (r.text ++ (gap.text ++ cs)) =
      Grammar.body? r.text (gap.text.tail ++ cs) := by
  obtain ⟨c, inside, other⟩ := noWord
  obtain ⟨d, rest, split⟩ := List.exists_cons_of_ne_nil apart
  have blank : isBlank d = true := gap.blank d (by simp [split])
  have stops : Stops Grammar.isRun (d :: (rest ++ cs)) :=
    stops_cons.2 (isRun_of_isBlank d blank)
  have all : ¬ r.text.all Grammar.isWord = true := fun all => by
    rw [List.all_eq_true.1 all c inside] at other
    cases other
  unfold Grammar.behindBrace?
  simp only [split, List.cons_append, List.tail_cons, takeWhile_append_of_stops r.run stops,
    List.drop_left, if_neg all, blank, if_true]

/-- **A written placeholder is recognised as a whole**, whatever stands behind it. -/
theorem recognise?_print (p : Placeholder) (rest : List Char) :
    Grammar.recognise? (p.print ++ rest) = some (p.parts, rest) := by
  have shape : p.print ++ rest =
      '{' :: (p.leadingText ++ (p.before.text ++ (p.printBody ++ rest))) := by
    simp [Placeholder.print, Placeholder.printBody]
  rw [shape]
  unfold Grammar.recognise?
  simp only
  cases written : p.leading with
  | none =>
    have empty : p.leadingText = [] := by simp [Placeholder.leadingText, written]
    have stops := @stops_printFilters rest Grammar.isRun p.filters p.trailing p.behind
      isRun_of_isBlank (by decide) (by decide)
    have body := @body?_append rest p p.before.text p.before.blank
    have word := behindBrace?_of_word p.before p.name.word stops
    simp only [Placeholder.printBody, List.append_assoc] at body ⊢
    rw [empty] at body ⊢
    exact word.trans body
  | some r =>
    have leading : p.leadingText = r.text := by simp [Placeholder.leadingText, written]
    have body := @body?_append rest p p.before.text.tail fun c mem =>
      p.before.blank c (List.mem_of_mem_tail mem)
    rw [leading] at body ⊢
    rw [behindBrace?_of_run (p.noWord r written) (p.parted (by simp [written])), body]

end Written

end Stencil
