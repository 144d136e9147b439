/-
# The language of placeholders

The grammar of placeholders as a regular language, with no reader in sight (`Regular.placeholder`).
With `s` for a blank and `w` for a word character it is

    { (lead s+)? s* w* (s* | s* w* s* (\( args \))?)* (s+ trail)? s* }

* `mem_placeholder_iff`: its texts are the spellings of placeholders;
* `isSome_recognise?_iff`: the grammar recognises a placeholder where a text of the language starts,
  and nowhere else.
-/
import Stencil.Proofs.Spelling

namespace Stencil.Regular

open Stencil.Text Stencil.Written
open scoped Computability

/-! ## 1. The language, part by part -/

/-- One character of a class. -/
def oneOf (p : Char → Bool) : Language Char := {text | ∃ c, p c = true ∧ text = [c]}

/-- One character. -/
def only (c : Char) : Language Char := {[c]}

/-- Blanks, or nothing. -/
def blanks : Language Char := (oneOf isBlank)∗

/-- At least one blank. -/
def someBlanks : Language Char := oneOf isBlank * blanks

/-- A run that is no word. -/
def leading : Language Char :=
  (oneOf Grammar.isRun)∗ * oneOf (fun c => Grammar.isRun c && !Grammar.isWord c) *
    (oneOf Grammar.isRun)∗

/-- Word characters, or nothing. -/
def word : Language Char := (oneOf Grammar.isWord)∗

/-- A string between two quotes. -/
def quoted (quote : Char) : Language Char := only quote * (oneOf (· != quote))∗ * only quote

/-- What stands between the parentheses of a filter. -/
def arguments : Language Char := (quoted '\'' + quoted '"' + oneOf isPlain)∗

/-- Arguments in their parentheses. -/
def enclosed : Language Char := only '(' * arguments * only ')'

/-- A filter, with all blanks around its bar and its word. -/
def filter : Language Char := blanks * only '|' * blanks * word * blanks * (1 + enclosed)

/-- A run. -/
def trailing : Language Char := oneOf Grammar.isRun * (oneOf Grammar.isRun)∗

/-- The leading literal, if there is one, and the blanks in front of the name. -/
def opening : Language Char := (1 + leading * someBlanks) * blanks

/-- The trailing literal, if there is one, and the closing brace. -/
def ending : Language Char := (1 + someBlanks * trailing) * blanks * only '}'

/-- A placeholder, from brace to brace. -/
def placeholder : Language Char := only '{' * opening * word * filter∗ * ending

/-! ## 2. Characters and runs -/

variable {p : Char → Bool} {text : List Char}

theorem mem_only {c : Char} : text ∈ only c ↔ text = [c] := Iff.rfl

theorem mem_kstar_oneOf : text ∈ (oneOf p)∗ ↔ ∀ c ∈ text, p c = true := by
  rw [Language.mem_kstar]
  constructor
  · rintro ⟨parts, rfl, single⟩ c mem
    obtain ⟨part, inside, here⟩ := List.mem_flatten.1 mem
    obtain ⟨d, holds, rfl⟩ := single part inside
    rwa [List.mem_singleton.1 here]
  · intro holds
    refine ⟨text.map fun c => [c], by simp [← List.flatMap_def], ?_⟩
    intro part inside
    obtain ⟨c, mem, rfl⟩ := List.mem_map.1 inside
    exact ⟨c, holds c mem, rfl⟩

theorem mem_kstar_cons {l : Language Char} {first later : List Char} (one : first ∈ l)
    (more : later ∈ l∗) : first ++ later ∈ l∗ := by
  rw [← Language.one_add_self_mul_kstar_eq_kstar]
  exact .inr (Language.append_mem_mul one more)

theorem mem_blanks_iff : text ∈ blanks ↔ ∃ gap : Gap, text = gap.text := by
  unfold blanks
  rw [mem_kstar_oneOf]
  constructor
  · exact fun blank => ⟨⟨text, blank⟩, rfl⟩
  · rintro ⟨gap, rfl⟩
    exact gap.blank

/-- At least one character of a class. -/
theorem mem_oneOf_mul_kstar :
    text ∈ oneOf p * (oneOf p)∗ ↔ text ≠ [] ∧ ∀ c ∈ text, p c = true := by
  rw [Language.mem_mul]
  constructor
  · rintro ⟨_, ⟨c, here, rfl⟩, later, more, rfl⟩
    exact ⟨List.cons_ne_nil _ _, List.forall_mem_cons.2 ⟨here, mem_kstar_oneOf.1 more⟩⟩
  · rintro ⟨nonempty, holds⟩
    obtain ⟨c, later, rfl⟩ := List.exists_cons_of_ne_nil nonempty
    obtain ⟨here, more⟩ := List.forall_mem_cons.1 holds
    exact ⟨[c], ⟨c, here, rfl⟩, later, mem_kstar_oneOf.2 more, rfl⟩

theorem mem_someBlanks_iff : text ∈ someBlanks ↔ ∃ gap : Gap, gap.text ≠ [] ∧ text = gap.text := by
  unfold someBlanks blanks
  rw [mem_oneOf_mul_kstar]
  constructor
  · rintro ⟨nonempty, blank⟩
    exact ⟨⟨text, blank⟩, nonempty, rfl⟩
  · rintro ⟨gap, nonempty, rfl⟩
    exact ⟨nonempty, gap.blank⟩

theorem mem_trailing_iff : text ∈ trailing ↔ ∃ run : Run, text = run.text := by
  unfold trailing
  rw [mem_oneOf_mul_kstar]
  constructor
  · rintro ⟨nonempty, run⟩
    exact ⟨⟨text, nonempty, run⟩, rfl⟩
  · rintro ⟨run, rfl⟩
    exact ⟨run.nonempty, run.run⟩

theorem mem_leading_iff : text ∈ leading ↔
    ∃ run : Run, (∃ c ∈ run.text, Grammar.isWord c = false) ∧ text = run.text := by
  unfold leading
  simp only [mul_assoc, Language.mem_mul, mem_kstar_oneOf]
  constructor
  · rintro ⟨front, inFront, _, ⟨_, ⟨c, here, rfl⟩, behind, inBehind, rfl⟩, rfl⟩
    simp only [Bool.and_eq_true, Bool.not_eq_true'] at here
    refine ⟨⟨front ++ ([c] ++ behind), by simp, ?_⟩, ⟨c, by simp, here.2⟩, rfl⟩
    intro d mem
    rcases List.mem_append.1 mem with mem | mem
    · exact inFront d mem
    · rcases List.mem_append.1 mem with mem | mem
      · rw [List.mem_singleton.1 mem]
        exact here.1
      · exact inBehind d mem
  · rintro ⟨run, ⟨c, inside, noWord⟩, rfl⟩
    obtain ⟨front, behind, split⟩ := List.append_of_mem inside
    have inRun : ∀ d ∈ front ++ c :: behind, Grammar.isRun d = true := split ▸ run.run
    rw [List.forall_mem_append, List.forall_mem_cons] at inRun
    refine ⟨front, inRun.1, [c] ++ behind, ⟨[c], ⟨c, ?_, rfl⟩, behind, inRun.2.2, rfl⟩, ?_⟩
    · simp [inRun.2.1, noWord]
    · simp [split]

/-! ## 3. Filters -/

theorem mem_quoted_iff {quote : Char} :
    text ∈ quoted quote ↔ ∃ inner, quote ∉ inner ∧ text = quote :: (inner ++ [quote]) := by
  unfold quoted
  simp only [mul_assoc, Language.mem_mul, mem_kstar_oneOf, mem_only, bne_iff_ne]
  constructor
  · rintro ⟨_, rfl, _, ⟨inner, other, _, rfl, rfl⟩, rfl⟩
    exact ⟨inner, fun mem => other quote mem rfl, rfl⟩
  · rintro ⟨inner, other, rfl⟩
    exact ⟨_, rfl, _, ⟨inner, fun c mem same => other (same ▸ mem), _, rfl, rfl⟩, rfl⟩

theorem mem_arguments_iff : text ∈ arguments ↔ ∃ a : Written.Arguments, text = a.print := by
  constructor
  · intro mem
    obtain ⟨parts, rfl, each⟩ := Language.mem_kstar.1 mem
    clear mem
    induction parts with
    | nil => exact ⟨.nil, rfl⟩
    | cons part parts ih =>
      obtain ⟨here, more⟩ := List.forall_mem_cons.1 each
      obtain ⟨later, print⟩ := ih more
      rw [List.flatten_cons, print]
      rcases here with (single | double) | ⟨c, free, rfl⟩
      · obtain ⟨inner, inside, rfl⟩ := mem_quoted_iff.1 single
        exact ⟨.quoted .single inner inside later, by simp [Written.Arguments.print, Quote.mark]⟩
      · obtain ⟨inner, inside, rfl⟩ := mem_quoted_iff.1 double
        exact ⟨.quoted .double inner inside later, by simp [Written.Arguments.print, Quote.mark]⟩
      · exact ⟨.plain c free later, rfl⟩
  · rintro ⟨a, rfl⟩
    unfold arguments
    induction a with
    | nil => exact Language.nil_mem_kstar _
    | plain c free later ih => exact mem_kstar_cons (.inr ⟨c, free, rfl⟩) ih
    | quoted quote inner inside later ih =>
      have shape : (Written.Arguments.quoted quote inner inside later).print =
          (quote.mark :: (inner ++ [quote.mark])) ++ later.print := by
        simp [Written.Arguments.print]
      have string : quote.mark :: (inner ++ [quote.mark]) ∈ quoted quote.mark :=
        mem_quoted_iff.2 ⟨inner, inside, rfl⟩
      rw [shape]
      refine mem_kstar_cons (.inl ?_) ih
      cases quote with
      | single => exact .inl string
      | double => exact .inr string

theorem mem_enclosed_iff :
    text ∈ enclosed ↔ ∃ a : Written.Arguments, text = '(' :: (a.print ++ [')']) := by
  unfold enclosed
  simp only [mul_assoc, Language.mem_mul, mem_only, mem_arguments_iff]
  constructor
  · rintro ⟨_, rfl, _, ⟨_, ⟨a, rfl⟩, _, rfl, rfl⟩, rfl⟩
    exact ⟨a, rfl⟩
  · rintro ⟨a, rfl⟩
    exact ⟨_, rfl, _, ⟨_, ⟨a, rfl⟩, _, rfl, rfl⟩, rfl⟩

theorem print_mem_filter (f : Clause) : f.print ∈ filter := by
  have word' : f.word ∈ word := mem_kstar_oneOf.2 f.isWord
  have blank : ∀ gap : Gap, gap.text ∈ blanks := fun gap => mem_blanks_iff.2 ⟨gap, rfl⟩
  unfold filter
  simp only [mul_assoc]
  unfold Clause.print Clause.printCall
  refine Language.append_mem_mul (blank f.before) ?_
  refine Language.append_mem_mul (mem_only.2 rfl : ['|'] ∈ only '|') ?_
  refine Language.append_mem_mul (blank f.behind) ?_
  cases f.arguments with
  | none =>
    rw [← List.append_nil f.word]
    exact Language.append_mem_mul word' (Language.append_mem_mul (blank .none) (.inl rfl))
  | some pair =>
    exact Language.append_mem_mul word' (Language.append_mem_mul (blank pair.1)
      (.inr (mem_enclosed_iff.2 ⟨pair.2, rfl⟩)))

/-- A text of clauses, with blanks behind the last one. -/
def IsClauses (text : List Char) : Prop :=
  ∃ (fs : List Clause) (last : Gap), text = printClauses fs ++ last.text

/-- Blanks in front of clauses belong to the first of them. -/
theorem IsClauses.blanks_append (gap : Gap) (h : IsClauses text) :
    IsClauses (gap.text ++ text) := by
  obtain ⟨fs, last, rfl⟩ := h
  cases fs with
  | nil => exact ⟨[], gap.append last, rfl⟩
  | cons f fs =>
    refine ⟨{ f with before := gap.append f.before } :: fs, last, ?_⟩
    simp [printClauses_cons, Gap.append, Clause.printCall]

theorem IsClauses.print_append (f : Clause) (h : IsClauses text) :
    IsClauses (f.print ++ text) := by
  obtain ⟨fs, last, rfl⟩ := h
  exact ⟨f :: fs, last, by simp [printClauses]⟩

/-- A filter is a clause, but for the blanks behind its word if there are no arguments. -/
theorem IsClauses.filter_append {first : List Char} (mem : first ∈ filter)
    (h : IsClauses text) : IsClauses (first ++ text) := by
  unfold filter at mem
  simp only [mul_assoc, Language.mem_mul] at mem
  obtain ⟨_, inBefore, _, ⟨_, rfl, _, ⟨_, inBehind, _, ⟨name, inWord, _, ⟨_, inGap, _, closing,
    rfl⟩, rfl⟩, rfl⟩, rfl⟩, rfl⟩ := mem
  obtain ⟨before, rfl⟩ := mem_blanks_iff.1 inBefore
  obtain ⟨behind, rfl⟩ := mem_blanks_iff.1 inBehind
  obtain ⟨gap, rfl⟩ := mem_blanks_iff.1 inGap
  have isWord := mem_kstar_oneOf.1 inWord
  rcases closing with rfl | closing
  · let f : Clause := { before, behind, word := name, isWord, arguments := none,
                        touching := by simp }
    simpa [f, Clause.print, Clause.printCall] using (h.blanks_append gap).print_append f
  · obtain ⟨a, rfl⟩ := mem_enclosed_iff.1 closing
    obtain ⟨f, print⟩ := exists_clause before behind gap isWord a
    simpa [print] using h.print_append f

theorem isClauses_of_mem_kstar (mem : text ∈ filter∗) : IsClauses text := by
  obtain ⟨parts, rfl, each⟩ := Language.mem_kstar.1 mem
  clear mem
  induction parts with
  | nil => exact ⟨[], .none, rfl⟩
  | cons part parts ih =>
    obtain ⟨here, more⟩ := List.forall_mem_cons.1 each
    exact (ih more).filter_append here

theorem printClauses_mem_kstar (fs : List Clause) : printClauses fs ∈ filter∗ :=
  Language.mem_kstar.2 ⟨fs.map Clause.print, by simp [printClauses, List.flatMap_def], by
    intro part mem
    obtain ⟨f, -, rfl⟩ := List.mem_map.1 mem
    exact print_mem_filter f⟩

/-! ## 4. Placeholders -/

theorem mem_opening_iff : text ∈ opening ↔ ∃ (run : Option Run) (gap : Gap),
    (∀ r ∈ run, ∃ c ∈ r.text, Grammar.isWord c = false) ∧ (run.isSome → gap.text ≠ []) ∧
      text = (run.map Run.text).getD [] ++ gap.text := by
  unfold opening
  rw [Language.mem_mul]
  constructor
  · rintro ⟨_, rfl | mem, _, blank, rfl⟩
    · obtain ⟨gap, rfl⟩ := mem_blanks_iff.1 blank
      exact ⟨none, gap, by simp, by simp, rfl⟩
    · obtain ⟨_, lead, _, some', rfl⟩ := Language.mem_mul.1 mem
      obtain ⟨run, noWord, rfl⟩ := mem_leading_iff.1 lead
      obtain ⟨apart, nonempty, rfl⟩ := mem_someBlanks_iff.1 some'
      obtain ⟨gap, rfl⟩ := mem_blanks_iff.1 blank
      refine ⟨some run, apart.append gap, ?_, by simp [Gap.append, nonempty],
        by simp [Gap.append]⟩
      rintro r ⟨rfl⟩
      exact noWord
  · rintro ⟨run, gap, noWord, parted, rfl⟩
    cases run with
    | none => exact ⟨[], .inl rfl, gap.text, mem_blanks_iff.2 ⟨gap, rfl⟩, rfl⟩
    | some run =>
      have lead : run.text ∈ leading := mem_leading_iff.2 ⟨run, noWord run rfl, rfl⟩
      have apart : gap.text ∈ someBlanks := mem_someBlanks_iff.2 ⟨gap, parted rfl, rfl⟩
      exact ⟨run.text ++ gap.text, .inr (Language.append_mem_mul lead apart), [],
        Language.nil_mem_kstar _, List.append_nil _⟩

theorem mem_ending_iff :
    text ∈ ending ↔ ∃ trailing behind, text = printEnd trailing behind := by
  unfold ending
  simp only [mul_assoc, Language.mem_mul, mem_only]
  constructor
  · rintro ⟨_, rfl | mem, _, ⟨_, blank, _, rfl, rfl⟩, rfl⟩
    · obtain ⟨behind, rfl⟩ := mem_blanks_iff.1 blank
      exact ⟨none, behind, rfl⟩
    · obtain ⟨_, apart, _, trail, rfl⟩ := Language.mem_mul.1 mem
      obtain ⟨gap, nonempty, rfl⟩ := mem_someBlanks_iff.1 apart
      obtain ⟨run, rfl⟩ := mem_trailing_iff.1 trail
      obtain ⟨behind, rfl⟩ := mem_blanks_iff.1 blank
      exact ⟨some { gap, run, apart := nonempty }, behind, by simp [printEnd]⟩
  · rintro ⟨t, behind, rfl⟩
    have blank : behind.text ∈ blanks := mem_blanks_iff.2 ⟨behind, rfl⟩
    cases t with
    | none => exact ⟨[], .inl rfl, _, ⟨_, blank, _, rfl, rfl⟩, rfl⟩
    | some t =>
      have apart : t.gap.text ∈ someBlanks := mem_someBlanks_iff.2 ⟨t.gap, t.apart, rfl⟩
      have trail : t.run.text ∈ trailing := mem_trailing_iff.2 ⟨t.run, rfl⟩
      exact ⟨_, .inr (Language.append_mem_mul apart trail), _, ⟨_, blank, _, rfl, rfl⟩,
        by simp [printEnd]⟩

/-- **The language of placeholders is their spellings.** -/
theorem mem_placeholder_iff : text ∈ placeholder ↔ ∃ s : Spelling, text = s.print := by
  unfold placeholder
  simp only [mul_assoc]
  constructor
  · rintro ⟨_, rfl, _, ⟨_, start, _, ⟨name, inName, _, ⟨_, filters, _, closing, rfl⟩, rfl⟩, rfl⟩,
      rfl⟩
    obtain ⟨leading, before, noWord, parted, rfl⟩ := mem_opening_iff.1 start
    obtain ⟨clauses, last, rfl⟩ := isClauses_of_mem_kstar filters
    obtain ⟨trailing, behind, rfl⟩ := mem_ending_iff.1 closing
    obtain ⟨trailing', behind', same⟩ := append_printEnd last trailing behind
    refine ⟨{ leading, before, name, isName := mem_kstar_oneOf.1 inName, clauses,
              trailing := trailing', behind := behind', noWord, parted }, ?_⟩
    simp [Spelling.print, Spelling.leadingText, ← same]
  · rintro ⟨s, rfl⟩
    have start : s.leadingText ++ s.before.text ∈ opening :=
      mem_opening_iff.2 ⟨s.leading, s.before, s.noWord, s.parted, rfl⟩
    have named : s.name ∈ word := mem_kstar_oneOf.2 s.isName
    have closing : printEnd s.trailing s.behind ∈ ending := mem_ending_iff.2 ⟨_, _, rfl⟩
    have brace : ['{'] ∈ only '{' := mem_only.2 rfl
    simpa [Spelling.print] using Language.append_mem_mul brace <|
      Language.append_mem_mul start <| Language.append_mem_mul named <|
      Language.append_mem_mul (printClauses_mem_kstar s.clauses) closing

/-- **The grammar recognises a placeholder where a text of the language starts**, and nowhere
else. -/
theorem isSome_recognise?_iff {cs : List Char} :
    (Grammar.recognise? cs).isSome ↔ ∃ text ∈ placeholder, text <+: cs := by
  constructor
  · intro recognised
    obtain ⟨⟨parts, rest⟩, found⟩ := Option.isSome_iff_exists.1 recognised
    obtain ⟨s, whole, -⟩ := exists_spelling found
    exact ⟨s.print, mem_placeholder_iff.2 ⟨s, rfl⟩, rest, whole.symm⟩
  · rintro ⟨_, mem, rest, rfl⟩
    obtain ⟨s, rfl⟩ := mem_placeholder_iff.1 mem
    exact isSome_recognise? s rest

end Stencil.Regular
