/-
# Reading undoes writing

A written template is read as it was written:

* `readChain_printFilters`: the filters of a placeholder, which the grammar finds as one piece, are
  the calls that were written;
* `placeholders_print`: a template has exactly the placeholders that were written, at their places.
-/
import Stencil.Proofs.Clauses
import Stencil.Proofs.Walk

namespace Stencil

open Stencil.Text Stencil.Template

namespace Written

/-! ## 1. The chain of a placeholder -/

/-- A filter is a clause with a word. -/
def Filter.toClause (f : Filter) : Clause where
  before := f.before
  behind := f.behind
  word := f.word.text
  isWord := f.word.word
  arguments := f.arguments
  touching := fun empty => absurd empty f.word.nonempty

theorem printCall_toClause (f : Filter) : f.toClause.printCall = f.printCall := by
  obtain ⟨_, _, _, arguments⟩ := f
  cases arguments <;> rfl

theorem printCall_ne_nil (f : Filter) : f.printCall ≠ [] := by
  unfold Filter.printCall
  cases f.arguments <;> simp [f.word.nonempty]

theorem call?_toClause (f : Filter) : f.toClause.call? = some f.call := by
  unfold Clause.call?
  rw [printCall_toClause, if_neg (by simp [printCall_ne_nil f])]
  rfl

theorem printClauses_toClause (fs : List Filter) :
    printClauses (fs.map Filter.toClause) = printFilters fs := by
  have print : ∀ f : Filter, f.toClause.print = f.print := fun f => by
    rw [Clause.print, printCall_toClause]
    rfl
  simp [printClauses, printFilters, List.flatMap_map, print]

/-- **The filters of a placeholder are read as they were written.** -/
theorem readChain_printFilters (fs : List Filter) :
    Call.readChain (trim (printFilters fs)) = fs.map Filter.call := by
  have read := readChain_printClauses (fs.map Filter.toClause)
  have calls : Clause.call? ∘ Filter.toClause = some ∘ Filter.call := funext call?_toClause
  rwa [printClauses_toClause, List.filterMap_map, calls, List.filterMap_eq_map] at read

/-! ## 2. The placeholders of a template -/

theorem nextFrom_literal (skipped : List Char) {text : List Char} (closed : '{' ∉ text)
    (cs : List Char) :
    nextFrom skipped (text ++ cs) = nextFrom (text.reverse ++ skipped) cs := by
  induction text generalizing skipped with
  | nil => rfl
  | cons c text ih =>
    simp only [List.mem_cons, not_or] at closed
    have missing : Grammar.recognise? (c :: (text ++ cs)) = none := by
      unfold Grammar.recognise?
      split
      · rename_i eq
        cases eq
        exact absurd rfl closed.1
      · rfl
    simp [nextFrom, missing, ih _ closed.2]

/-- What the search finds behind literal text. -/
def Placeholder.found (p : Placeholder) (literal : Literal) (rest : List Char) : Found where
  skipped := literal.text.reverse
  parts := p.parts
  opened := p.print.tail ++ rest
  rest := rest

theorem next?_print (literal : Literal) (p : Placeholder) (rest : List Char) :
    next? (literal.text ++ (p.print ++ rest)) = some (p.found literal rest) := by
  have whole := recognise?_print p rest
  unfold next?
  rw [nextFrom_literal [] literal.closed]
  simp only [Placeholder.print, List.cons_append] at whole ⊢
  unfold nextFrom
  rw [whole]
  simp [Placeholder.found, Placeholder.print]

theorem matched_found (literal : Literal) (p : Placeholder) (rest : List Char) :
    (p.found literal rest).matched = p.print := by
  simp only [Found.matched, Placeholder.found, List.length_append, Nat.add_sub_cancel,
    List.take_left]
  rfl

theorem located_found (literal : Literal) (p : Placeholder) (rest : List Char) (start : Nat) :
    (p.found literal rest).located start = p.located start := by
  have chain := readChain_printFilters p.filters
  simp only [Found.located, Found.placeholder, matched_found]
  simp only [Placeholder.found, Placeholder.parts, chain]
  rfl

/-- Literal text does not hide the placeholder behind it. -/
theorem Literal.unescaped (literal : Literal) {passed : List Char}
    (h : isEscaped passed = false) : isEscaped (literal.text.reverse ++ passed) = false := by
  by_cases empty : literal.text = []
  · simpa [empty] using h
  · rw [isEscaped_append passed (by simpa using empty)]
    simpa [isEscaped] using literal.unescaping

theorem next?_literal (literal : Literal) : next? literal.text = none := by
  have := nextFrom_literal [] literal.closed []
  rw [List.append_nil] at this
  exact this

/-- What is read from parts and the text behind them, wherever they start. -/
theorem placeholdersOf_printParts (parts : List (Literal × Placeholder)) (last : Literal)
    {passed : List Char} (start : Nat) (h : isEscaped passed = false) :
    placeholdersOf (piecesFrom passed start (printParts parts ++ last.text)) =
      locatedFrom start parts := by
  induction parts generalizing passed start with
  | nil =>
    have none : next? (printParts [] ++ last.text) = none := next?_literal last
    rw [piecesFrom_none passed start none]
    rfl
  | cons part later ih =>
    obtain ⟨literal, p⟩ := part
    have shape : printParts ((literal, p) :: later) ++ last.text =
        literal.text ++ (p.print ++ (printParts later ++ last.text)) := by
      simp [printParts]
    have found := next?_print literal p (printParts later ++ last.text)
    rw [shape, piecesFrom_found start found (literal.unescaped h), placeholdersOf_literal,
      placeholdersOf_placeholder, matched_found, located_found]
    have behind := @ih ['}'] (start + byteLength literal.text + byteLength p.print) rfl
    have skipped : (p.found literal (printParts later ++ last.text)).skipped =
      literal.text.reverse := rfl
    have rest : (p.found literal (printParts later ++ last.text)).rest =
      printParts later ++ last.text := rfl
    rw [skipped, rest, byteLength_reverse, behind]
    rfl

/-- **Reading undoes writing.**  A template has the placeholders that it was written with, in order
and at their places, and no others. -/
theorem placeholders_print (t : Template) : placeholders t.print = locatedFrom 0 t.parts :=
  placeholdersOf_printParts t.parts t.last 0 rfl

/-- A template whose placeholder has all parts.  The second filter has a bar and a brace among its
arguments, and the third one has no parentheses. -/
def everyPart : Template where
  parts := [({ text := ['é', '}'] }, {
    leading := some { text := ['$', '('] }
    before := .space
    name := { text := "price".toList }
    filters := [
      { before := .none
        behind := { text := [' ', '\t'] }
        word := { text := "round".toList }
        arguments := some (.none, .plain '2' rfl .nil) },
      { before := .space
        behind := .none
        word := { text := "pad_end".toList }
        arguments := some (.space, .plain '8' rfl <| .plain ',' rfl <|
          .quoted .single ['|', '}', ')'] (by decide) .nil) },
      { before := .none
        behind := .none
        word := { text := "upper".toList }
        arguments := none }]
    trailing := some { gap := { text := [' ', ' '] }, run := { text := "eur)".toList } }
    behind := .none
    noWord := by
      rintro r ⟨rfl⟩
      exact ⟨'$', by decide, by decide⟩
    parted := by decide
    apart := by
      rintro f _ _ t ⟨rfl⟩
      decide })]
  last := { text := ['!'] }

/-- The parts of a placeholder are told apart, and its place is among the text around it. -/
theorem placeholders_everyPart :
    everyPart.print =
        "é\x7d\x7b$( price| \tround(2) |pad_end (8,'|\x7d)')|upper  eur)\x7d!".toList ∧
      (placeholders everyPart.print).map
          (fun p => (p.leading, p.name, p.trailing, p.start, p.stop)) =
        [("$(", "price", "eur)", 3, 55)] ∧
      (placeholders everyPart.print).flatMap (·.chain.map fun c => (c.name, c.args.length)) =
        [("round", 1), ("pad_end", 2), ("upper", 0)] := by
  refine ⟨by decide +kernel, ?_⟩
  rw [placeholders_print]
  decide +kernel

end Written

end Stencil
