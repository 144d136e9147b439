/-
# All the ways to spell a placeholder

Of the texts that the grammar recognises only some are written as an author would
(`Written.Placeholder`): the name may be missing, and so may the words of filters.  A *spelling* is
any way to put a placeholder together, and the readers of the grammar are inverted by it:

* `exists_spelling`: what is recognised is spelled by the parts that are read from it;
* `isSome_recognise?`: where a spelling starts, a placeholder is recognised.

The second one is about some placeholder and not about that spelling, as a text can be spelled in
several ways.  When a reader goes astray, it is on a trailing literal that starts like a name: it
takes those characters for one, finds no end behind them and goes back (`resumes`).
-/
import Stencil.Proofs.Clauses

namespace Stencil

open Stencil.Text

namespace Written

variable {cs rest : List Char}

/-! ## 1. Spellings -/

/-- Blanks and more blanks. -/
def Gap.append (g h : Gap) : Gap where
  text := g.text ++ h.text
  blank := fun c mem => (List.mem_append.1 mem).elim (g.blank c) (h.blank c)

/-- Blanks in front of the end of a placeholder, which come to stand in front of its trailing
literal if it has one. -/
theorem append_printEnd (gap : Gap) (trailing : Option Trailing) (behind : Gap) :
    ∃ trailing' behind', gap.text ++ printEnd trailing behind = printEnd trailing' behind' := by
  cases trailing with
  | none => exact ⟨none, gap.append behind, by simp [printEnd, Gap.append]⟩
  | some t =>
    refine ⟨some { gap := gap.append t.gap, run := t.run, apart := ?_ }, behind, ?_⟩
    · simp [Gap.append, t.apart]
    · simp [printEnd, Gap.append]

/-- Arguments behind any word make a clause with it.  Without a word the blanks on its two sides
come together. -/
theorem exists_clause (before behind gap : Gap) {word : List Char}
    (isWord : ∀ c ∈ word, Grammar.isWord c = true) (arguments : Arguments) :
    ∃ f : Clause, f.print = before.text ++ '|' :: (behind.text ++ (word ++ (gap.text ++
      '(' :: (arguments.print ++ [')'])))) := by
  by_cases empty : word = []
  · let f : Clause := { before, behind := behind.append gap, word := [], isWord := by simp,
                        arguments := some (.none, arguments), touching := by simp [Gap.none] }
    exact ⟨f, by simp [f, empty, Clause.print, Clause.printCall, Gap.append, Gap.none]⟩
  · exact ⟨{ before, behind, word, isWord, arguments := some (gap, arguments),
             touching := fun nothing => absurd nothing empty },
      by simp [Clause.print, Clause.printCall]⟩

/-- A way to spell a placeholder.  A leading literal is no word, and a blank ends it. -/
structure Spelling where
  leading : Option Run
  before : Gap
  name : List Char
  isName : ∀ c ∈ name, Grammar.isWord c = true
  clauses : List Clause
  trailing : Option Trailing
  behind : Gap
  noWord : ∀ r ∈ leading, ∃ c ∈ r.text, Grammar.isWord c = false
  parted : leading.isSome → before.text ≠ []

/-- The text of a leading literal. -/
def Spelling.leadingText (s : Spelling) : List Char := (s.leading.map Run.text).getD []

def Spelling.print (s : Spelling) : List Char :=
  '{' :: (s.leadingText ++ (s.before.text ++ (s.name ++ (printClauses s.clauses ++
    printEnd s.trailing s.behind))))

/-- The parts that a spelling is put together from. -/
def Spelling.parts (s : Spelling) : Grammar.Parts where
  leading := s.leadingText
  name := s.name
  filters := trim (printClauses s.clauses)
  trailing := trailingText s.trailing

/-! ## 2. What the readers take -/

/-- Trimming takes off blanks. -/
theorem exists_gap (cs : List Char) : ∃ gap : Gap, cs = gap.text ++ trimStart cs :=
  ⟨{ text := cs.takeWhile isBlank, blank := fun _ mem => List.mem_takeWhile_imp mem },
    List.takeWhile_append_dropWhile.symm⟩

theorem close?_eq_some (h : Grammar.close? cs = some rest) :
    ∃ gap : Gap, cs = gap.text ++ '}' :: rest := by
  obtain ⟨gap, whole⟩ := exists_gap cs
  unfold Grammar.close? at h
  split at h
  · rename_i closing
    cases h
    exact ⟨gap, closing ▸ whole⟩
  · cases h

theorem trailing?_eq_some {run : List Char} (h : Grammar.trailing? cs = some (run, rest)) :
    ∃ (t : Trailing) (behind : Gap),
      cs = printEnd (some t) behind ++ rest ∧ run = trailingText (some t) := by
  obtain ⟨gap, whole⟩ := exists_gap cs
  unfold Grammar.trailing? at h
  simp only at h
  split at h
  · cases h
  · rename_i started
    simp only [Bool.or_eq_true, decide_eq_true_eq, not_or, List.isEmpty_iff] at started
    obtain ⟨found, closed, same⟩ := Option.map_eq_some_iff.1 h
    cases same
    obtain ⟨behind, after⟩ := close?_eq_some closed
    have apart : gap.text ≠ [] := by
      intro nothing
      rw [nothing, List.nil_append] at whole
      exact started.1 (congrArg List.length whole).symm
    let run : Run := { text := (trimStart cs).takeWhile Grammar.isRun, nonempty := started.2,
                       run := fun _ mem => List.mem_takeWhile_imp mem }
    have inner : trimStart cs = run.text ++ (behind.text ++ '}' :: rest) := by
      rw [← after, drop_takeWhile]
      exact List.takeWhile_append_dropWhile.symm
    refine ⟨{ gap, run, apart }, behind, ?_, rfl⟩
    conv_lhs => rw [whole, inner]
    simp [printEnd]

theorem ending?_eq_some {run : List Char} (h : Grammar.ending? cs = some (run, rest)) :
    ∃ trailing behind, cs = printEnd trailing behind ++ rest ∧ run = trailingText trailing := by
  unfold Grammar.ending? at h
  split at h
  · rename_i found trailed
    cases h
    obtain ⟨t, behind, whole, same⟩ := trailing?_eq_some trailed
    exact ⟨some t, behind, whole, same⟩
  · obtain ⟨found, closed, same⟩ := Option.map_eq_some_iff.1 h
    cases same
    obtain ⟨behind, whole⟩ := close?_eq_some closed
    exact ⟨none, behind, by simpa [printEnd] using whole, rfl⟩

/-- The text up to the closing quote, if one is open, and what the arguments go on with. -/
def printOpen (quote : Option Quote) (text : List Char) (arguments : Arguments) : List Char :=
  match quote with
  | none => arguments.print
  | some quote => text ++ quote.mark :: arguments.print

theorem argumentsEnd?_eq_some {quote : Option Quote}
    (h : Grammar.argumentsEnd? (quote.map Quote.mark) cs = some rest) :
    ∃ text arguments, (∀ q ∈ quote, q.mark ∉ text) ∧
      cs = printOpen quote text arguments ++ ')' :: rest := by
  induction cs generalizing quote with
  | nil => simp [Grammar.argumentsEnd?] at h
  | cons c cs ih =>
    unfold Grammar.argumentsEnd? at h
    cases quote with
    | some q =>
      simp only [Option.map_some] at h
      by_cases closing : c = q.mark
      · rw [if_pos (beq_iff_eq.2 closing)] at h
        obtain ⟨_, arguments, -, rfl⟩ := @ih none h
        exact ⟨[], arguments, by simp, by simp [printOpen, closing]⟩
      · rw [if_neg (by simpa using closing)] at h
        obtain ⟨text, arguments, inside, rfl⟩ := @ih (some q) h
        refine ⟨c :: text, arguments, ?_, by simp [printOpen]⟩
        rintro _ ⟨rfl⟩
        exact List.not_mem_cons_of_ne_of_not_mem (Ne.symm closing) (inside q rfl)
    | none =>
      simp only [Option.map_none] at h
      split at h
      · rename_i closing
        cases h
        exact ⟨[], .nil, by simp, by simp [printOpen, Arguments.print, eq_of_beq closing]⟩
      · rename_i noClosing
        split at h
        · cases h
        · rename_i noOpening
          by_cases opens : ∃ q : Quote, c = q.mark
          · obtain ⟨q, rfl⟩ := opens
            have quoted : (q.mark == '\'' || q.mark == '"') = true := by cases q <;> rfl
            rw [if_pos quoted] at h
            obtain ⟨text, arguments, inside, rfl⟩ := @ih (some q) h
            exact ⟨[], .quoted q text (inside q rfl) arguments, by simp,
              by simp [printOpen, Arguments.print]⟩
          · have single : c ≠ '\'' := fun same => opens ⟨.single, same⟩
            have double : c ≠ '"' := fun same => opens ⟨.double, same⟩
            rw [if_neg (by simp [single, double])] at h
            obtain ⟨_, arguments, -, rfl⟩ := @ih none h
            have free : isPlain c = true := by
              simp only [beq_iff_eq] at noClosing noOpening
              simp [isPlain, noClosing, noOpening, single, double]
            exact ⟨[], .plain c free arguments, by simp, by simp [printOpen, Arguments.print]⟩

/-- The word that is passed, and the blanks in front of it. -/
theorem exists_pastWord (cs : List Char) : ∃ gap : Gap,
    cs = gap.text ++ ((trimStart cs).takeWhile Grammar.isWord ++ Grammar.pastWord cs) := by
  obtain ⟨gap, whole⟩ := exists_gap cs
  unfold Grammar.pastWord
  simp only
  split
  · rename_i nothing
    exact ⟨.none, by simp [Gap.none, List.isEmpty_iff.1 nothing]⟩
  · refine ⟨gap, ?_⟩
    rw [drop_takeWhile, List.takeWhile_append_dropWhile]
    exact whole

theorem isWord_takeWhile (cs : List Char) :
    ∀ c ∈ cs.takeWhile Grammar.isWord, Grammar.isWord c = true := fun _ mem =>
  List.mem_takeWhile_imp mem

/-- The text of a tail is clauses and the end of a placeholder. -/
def Spells (cs : List Char) (tail : Grammar.Tail) : Prop :=
  ∃ fs trailing behind, cs = printClauses fs ++ tail.filtersEnd ∧
    tail.filtersEnd = printEnd trailing behind ++ tail.rest ∧
    tail.trailing = trailingText trailing

theorem Spells.cons (f : Clause) {tail : Grammar.Tail} (h : Spells cs tail) :
    Spells (f.print ++ cs) tail := by
  obtain ⟨fs, trailing, behind, rfl, ending⟩ := h
  exact ⟨f :: fs, trailing, behind, by simp [printClauses], ending⟩

theorem tail?_eq_some {tail : Grammar.Tail} (h : Grammar.tail? cs = some tail) :
    Spells cs tail := by
  fun_induction Grammar.tail? cs generalizing tail with
  | case1 cs bar inner withArguments found same =>
    -- arguments behind the bar
    rename_i ih
    cases h
    unfold withArguments at same
    split at same
    · rename_i opened paren
      split at same
      · rename_i after closed
        obtain ⟨before, whole⟩ := exists_gap cs
        obtain ⟨behind, past⟩ := exists_pastWord bar
        obtain ⟨gap, opening⟩ := exists_gap (Grammar.pastWord bar)
        obtain ⟨_, arguments, -, eq⟩ := @argumentsEnd?_eq_some opened after none closed
        obtain ⟨f, print⟩ := exists_clause before behind gap (isWord_takeWhile (trimStart bar))
          arguments
        have shape : cs = f.print ++ after := by
          conv_lhs => rw [whole, inner, past, opening, paren, eq]
          simp [print, printOpen]
        exact shape ▸ (ih opened paren after closed same).cons f
      · cases same
    · cases same
  | case2 cs bar inner _ _ found same =>
    -- no arguments, but maybe a word
    rename_i _ ih
    cases h
    obtain ⟨before, whole⟩ := exists_gap cs
    obtain ⟨behind, past⟩ := exists_pastWord bar
    let f : Clause := { before, behind, word := (trimStart bar).takeWhile Grammar.isWord,
                        isWord := isWord_takeWhile _, arguments := none,
                        touching := by simp }
    have shape : cs = f.print ++ Grammar.pastWord bar := by
      conv_lhs => rw [whole, inner, past]
      simp [f, Clause.print, Clause.printCall]
    exact shape ▸ (ih same).cons f
  | case3 cs bar inner =>
    -- what looked like a word belongs to the trailing literal
    obtain ⟨found, trailed, same⟩ := Option.map_eq_some_iff.1 h
    cases same
    obtain ⟨before, whole⟩ := exists_gap cs
    obtain ⟨t, behind, ending, run⟩ := trailing?_eq_some trailed
    let f : Clause := { before, behind := .none, word := [], isWord := by simp,
                        arguments := none, touching := by simp }
    have shape : cs = f.print ++ bar := by
      rw [whole, inner]
      simp [f, Clause.print, Clause.printCall, Gap.none]
    exact shape ▸ Spells.cons f ⟨[], some t, behind, rfl, ending, run⟩
  | case4 cs _ =>
    obtain ⟨found, ended, same⟩ := Option.map_eq_some_iff.1 h
    cases same
    obtain ⟨trailing, behind, ending, run⟩ := ending?_eq_some ended
    exact ⟨[], trailing, behind, rfl, ending, run⟩

theorem body?_eq (leading cs : List Char) : Grammar.body? leading cs =
    match Grammar.tail? (Grammar.pastWord cs) with
    | some tail =>
      some (⟨leading, (trimStart cs).takeWhile Grammar.isWord,
        trim ((Grammar.pastWord cs).take
          ((Grammar.pastWord cs).length - tail.filtersEnd.length)), tail.trailing⟩, tail.rest)
    | none => (Grammar.trailing? cs).map fun (run, rest) => (⟨leading, [], [], run⟩, rest) := rfl

theorem body?_eq_some {leading : List Char} {parts : Grammar.Parts}
    (h : Grammar.body? leading cs = some (parts, rest)) :
    ∃ (gap : Gap) (name : List Char) (fs : List Clause) (trailing : Option Trailing)
      (behind : Gap), (∀ c ∈ name, Grammar.isWord c = true) ∧
      cs = gap.text ++ (name ++ (printClauses fs ++ (printEnd trailing behind ++ rest))) ∧
      parts = ⟨leading, name, trim (printClauses fs), trailingText trailing⟩ := by
  rw [body?_eq] at h
  split at h
  · rename_i tail found
    cases h
    obtain ⟨gap, past⟩ := exists_pastWord cs
    obtain ⟨fs, trailing, behind, filters, ending, run⟩ := tail?_eq_some found
    refine ⟨gap, _, fs, trailing, behind, isWord_takeWhile (trimStart cs), ?_, ?_⟩
    · rw [← ending, ← filters]
      exact past
    · rw [run, filters, List.length_append, Nat.add_sub_cancel, List.take_left]
  · obtain ⟨found, trailed, same⟩ := Option.map_eq_some_iff.1 h
    cases same
    obtain ⟨t, behind, ending, run⟩ := trailing?_eq_some trailed
    refine ⟨.none, [], [], some t, behind, by simp, ?_, ?_⟩
    · simpa [Gap.none, printClauses] using ending
    · rw [run]
      rfl

/-- **What is recognised is spelled by its parts.** -/
theorem exists_spelling {parts : Grammar.Parts}
    (h : Grammar.recognise? cs = some (parts, rest)) :
    ∃ s : Spelling, cs = s.print ++ rest ∧ parts = s.parts := by
  unfold Grammar.recognise? at h
  split at h
  · rename_i inner
    unfold Grammar.behindBrace? at h
    simp only [drop_takeWhile] at h
    split at h
    · obtain ⟨before, name, clauses, trailing, behind, isName, rfl, rfl⟩ := body?_eq_some h
      refine ⟨{ leading := none, before, name, isName, clauses, trailing, behind,
                noWord := fun _ none => (nomatch none), parted := fun some => nomatch some },
        ?_, ?_⟩
      · simp [Spelling.print, Spelling.leadingText]
      · simp [Spelling.parts, Spelling.leadingText]
    · rename_i noWord
      have word := List.takeWhile_append_dropWhile (p := Grammar.isRun) (l := inner)
      split at h
      · rename_i c after eq
        split at h
        · rename_i blank
          obtain ⟨gap, name, clauses, trailing, behind, isName, rfl, rfl⟩ := body?_eq_some h
          have other : ∃ c ∈ inner.takeWhile Grammar.isRun, Grammar.isWord c = false := by
            simpa using noWord
          let run : Run := { text := inner.takeWhile Grammar.isRun
                             nonempty := by
                               obtain ⟨c, mem, -⟩ := other
                               exact List.ne_nil_of_mem mem
                             run := fun _ mem => List.mem_takeWhile_imp mem }
          let before : Gap := { text := c :: gap.text
                                blank := List.forall_mem_cons.2 ⟨blank, gap.blank⟩ }
          refine ⟨{ leading := some run, before, name, isName, clauses, trailing, behind,
                    noWord := ?_, parted := by simp [before] }, ?_, ?_⟩
          · rintro r ⟨rfl⟩
            exact other
          · rw [eq] at word
            simp only [Spelling.print, Spelling.leadingText, Option.map_some, Option.getD_some,
              run, before]
            conv_lhs => rw [← word]
            simp
          · simp [Spelling.parts, Spelling.leadingText, run]
        · cases h
      · cases h
  · cases h

/-! ## 3. Where a spelling starts, a placeholder is recognised -/

/-- What may follow the name: clauses, the end, and any text. -/
def afterName (fs : List Clause) (trailing : Option Trailing) (behind : Gap)
    (rest : List Char) : List Char := printClauses fs ++ (printEnd trailing behind ++ rest)

variable {fs : List Clause} {trailing : Option Trailing} {behind : Gap}

theorem stops_afterName {p : Char → Bool} (other : ∀ c, isBlank c = true → p c = false)
    (bar : p '|' = false) (brace : p '}' = false) :
    Stops p (afterName fs trailing behind rest) := by
  unfold afterName
  cases fs with
  | nil => exact stops_printEnd trailing behind other brace
  | cons f fs =>
    simp only [printClauses_cons, List.append_assoc, List.cons_append]
    exact (stops_cons.2 bar).append_blanks f.before.blank other

theorem trimStart_bar (gap : Gap) (cs : List Char) :
    trimStart (gap.text ++ '|' :: cs) = '|' :: cs := by
  have bar : Stops isBlank ('|' :: cs) := stops_cons.2 (by decide)
  rw [trimStart_append gap.blank, trimStart_of_stops bar]

/-- What follows the name starts like a name only where it is a trailing literal, and then that can
be read from the blanks in front of it on. -/
theorem stops_or_trailing : Stops Grammar.isWord (trimStart (afterName fs trailing behind rest)) ∨
    ∀ gap : Gap, (Grammar.trailing? (gap.text ++ afterName fs trailing behind rest)).isSome := by
  unfold afterName
  cases fs with
  | cons f fs =>
    left
    simp only [printClauses_cons, List.append_assoc, List.cons_append, trimStart_bar]
    exact stops_cons.2 (by decide)
  | nil =>
    cases trailing with
    | none => exact .inl (stops_trimStart_printEnd behind (by decide) fun _ none => nomatch none)
    | some t =>
      right
      intro gap
      have read := @trailing?_append rest
        { gap := gap.append t.gap, run := t.run, apart := by simp [Gap.append, t.apart] } behind
      simp only [Gap.append, List.append_assoc] at read
      simp [printClauses, printEnd, read]

theorem pastWord_of_stops (stops : Stops Grammar.isWord (trimStart cs)) :
    Grammar.pastWord cs = cs := by
  have nothing := @takeWhile_append_of_stops Grammar.isWord [] _ (by simp) stops
  rw [List.nil_append] at nothing
  unfold Grammar.pastWord
  simp [nothing]

/-- **A reader that took a trailing literal for a name can go back.**  Behind a word, or what looks
like one, either the rest of the placeholder can be read or there is a trailing literal. -/
theorem resumes
    (reads : ∀ gap : Gap,
      (Grammar.tail? (gap.text ++ afterName fs trailing behind rest)).isSome)
    (gap : Gap) {word : List Char} (isWord : ∀ c ∈ word, Grammar.isWord c = true) :
    (Grammar.tail? (Grammar.pastWord
        (gap.text ++ (word ++ afterName fs trailing behind rest)))).isSome ∨
      (Grammar.trailing? (gap.text ++ (word ++ afterName fs trailing behind rest))).isSome := by
  by_cases empty : word = []
  · subst empty
    rw [List.nil_append]
    rcases @stops_or_trailing rest fs trailing behind with stops | trailed
    · left
      rw [pastWord_of_stops (by rwa [trimStart_append gap.blank])]
      exact reads gap
    · exact .inr (trailed gap)
  · left
    rw [pastWord_append gap ⟨word, empty, isWord⟩
      (stops_afterName isWord_of_isBlank (by decide) (by decide))]
    exact reads .none

/-- Arguments are found behind any word. -/
theorem withArguments?_clause (before gap : Gap) {word : List Char}
    (isWord : ∀ c ∈ word, Grammar.isWord c = true) (arguments : Arguments) (after : List Char) :
    withArguments? (before.text ++ (word ++ (gap.text ++ '(' :: (arguments.print ++
      ')' :: after)))) = Grammar.tail? after := by
  have opening : Stops isBlank ('(' :: (arguments.print ++ ')' :: after)) :=
    stops_cons.2 (by decide)
  have paren : trimStart (Grammar.pastWord (before.text ++ (word ++ (gap.text ++
      '(' :: (arguments.print ++ ')' :: after))))) = '(' :: (arguments.print ++ ')' :: after) := by
    by_cases empty : word = []
    · have stops : Stops Grammar.isWord ('(' :: (arguments.print ++ ')' :: after)) :=
        stops_cons.2 (by decide)
      have inner : trimStart (before.text ++ (gap.text ++ '(' :: (arguments.print ++
          ')' :: after))) = '(' :: (arguments.print ++ ')' :: after) := by
        rw [trimStart_append before.blank, trimStart_append gap.blank, trimStart_of_stops opening]
      rw [empty, List.nil_append, pastWord_of_stops (by rwa [inner]), inner]
    · have stops : Stops Grammar.isWord (gap.text ++ '(' :: (arguments.print ++ ')' :: after)) :=
        (stops_cons.2 (by decide)).append_blanks gap.blank isWord_of_isBlank
      rw [pastWord_append before ⟨word, empty, isWord⟩ stops, trimStart_append gap.blank,
        trimStart_of_stops opening]
  unfold withArguments?
  rw [paren]
  simp [argumentsEnd?_print]

theorem isSome_tail? (gap : Gap) :
    (Grammar.tail? (gap.text ++ afterName fs trailing behind rest)).isSome := by
  induction fs generalizing gap with
  | nil =>
    obtain ⟨trailing', behind', same⟩ := append_printEnd gap trailing behind
    have read := @tail?_printFilters rest [] trailing' behind' fun _ last => nomatch last
    simp only [printFilters, List.flatMap_nil, List.nil_append, ← same, List.append_assoc] at read
    simp [afterName, printClauses, read]
  | cons f fs ih =>
    have shape : afterName (f :: fs) trailing behind rest = f.before.text ++ '|' ::
        (f.behind.text ++ (f.printCall ++ afterName fs trailing behind rest)) := by
      simp [afterName, printClauses_cons]
    have bar : trimStart (gap.text ++ afterName (f :: fs) trailing behind rest) = '|' ::
        (f.behind.text ++ (f.printCall ++ afterName fs trailing behind rest)) := by
      rw [trimStart_append gap.blank, shape, trimStart_bar]
    rw [tail?_of_bar bar]
    unfold Clause.printCall
    cases f.arguments with
    | some pair =>
      obtain ⟨gap', arguments⟩ := pair
      have taken := withArguments?_clause f.behind gap' f.isWord arguments
        (afterName fs trailing behind rest)
      simp only [List.append_assoc, List.cons_append, List.nil_append, taken, Option.isSome_or]
      exact Bool.or_eq_true_iff.2 (.inl (ih .none))
    | none =>
      rcases resumes ih f.behind f.isWord with read | trailed
      · simp [read]
      · simp [trailed]

theorem isSome_body? (leading : List Char) (gap : Gap) {name : List Char}
    (isName : ∀ c ∈ name, Grammar.isWord c = true) :
    (Grammar.body? leading (gap.text ++ (name ++ afterName fs trailing behind rest))).isSome := by
  have start : ∀ cs, (Grammar.body? leading cs).isSome =
      ((Grammar.tail? (Grammar.pastWord cs)).isSome || (Grammar.trailing? cs).isSome) := by
    intro cs
    rw [body?_eq]
    cases Grammar.tail? (Grammar.pastWord cs) <;> simp
  rw [start]
  exact Bool.or_eq_true_iff.2 (resumes isSome_tail? gap isName)

/-- **Where a spelling starts, a placeholder is recognised.** -/
theorem isSome_recognise? (s : Spelling) (rest : List Char) :
    (Grammar.recognise? (s.print ++ rest)).isSome := by
  have shape : s.print ++ rest = '{' :: (s.leadingText ++ (s.before.text ++ (s.name ++
      afterName s.clauses s.trailing s.behind rest))) := by
    simp [Spelling.print, afterName]
  rw [shape]
  unfold Grammar.recognise?
  simp only
  cases written : s.leading with
  | none =>
    have empty : s.leadingText = [] := by simp [Spelling.leadingText, written]
    rw [empty, List.nil_append, behindBrace?_of_word s.before s.isName
      (stops_afterName isRun_of_isBlank (by decide) (by decide))]
    exact isSome_body? [] s.before s.isName
  | some r =>
    have leading : s.leadingText = r.text := by simp [Spelling.leadingText, written]
    rw [leading, behindBrace?_of_run (s.noWord r written) (s.parted (by simp [written]))]
    exact isSome_body? r.text
      ⟨s.before.text.tail, fun c mem => s.before.blank c (List.mem_of_mem_tail mem)⟩ s.isName

end Written

end Stencil
