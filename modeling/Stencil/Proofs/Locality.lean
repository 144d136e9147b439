/-
# Placeholders without parentheses

Among the arguments of a filter braces stand for themselves, so where a parenthesis opens, the
reader looks past closing braces.  Otherwise the first closing brace ends a placeholder, and what
stands behind it is not looked at:

* `recognise?_closed`: up to the first closing brace, a text without an opening parenthesis is read
  in the same way in front of any rest;
* `Spelling.exists_inner`: a placeholder without arguments has no braces but its own;
* `closed_of_next?`: so a placeholder without an opening parenthesis is found wherever it stands.
-/
import Stencil.Proofs.Coverage

namespace Stencil

open Stencil.Text

namespace Grammar

/-! ## 1. Readers in front of a closing brace -/

section
variable {p : Char → Bool} (brace : p '}' = false) (inner rest : List Char)
include brace

theorem takeWhile_closed : (inner ++ '}' :: rest).takeWhile p = inner.takeWhile p := by
  induction inner with
  | nil => simp [brace]
  | cons c inner ih => simp [List.takeWhile_cons, ih]

theorem dropWhile_closed :
    (inner ++ '}' :: rest).dropWhile p = inner.dropWhile p ++ '}' :: rest := by
  induction inner with
  | nil => simp [brace]
  | cons c inner ih =>
    rw [List.cons_append, List.dropWhile_cons, List.dropWhile_cons, ih]
    split <;> rfl

theorem stops_closed (stops : Stops p inner) : Stops p (inner ++ '}' :: rest) := by
  cases inner with
  | nil => exact stops_cons.2 brace
  | cons c inner => exact stops_cons.2 (stops_cons.1 stops)

end

theorem trimStart_closed (inner rest : List Char) :
    trimStart (inner ++ '}' :: rest) = trimStart inner ++ '}' :: rest :=
  dropWhile_closed (by decide) inner rest

theorem pastWord_closed (inner rest : List Char) :
    pastWord (inner ++ '}' :: rest) = pastWord inner ++ '}' :: rest := by
  unfold pastWord
  simp only [drop_takeWhile, trimStart_closed]
  rw [takeWhile_closed (by decide), dropWhile_closed (by decide)]
  split <;> rfl

theorem withArguments?_closed {inner : List Char} (bare : '(' ∉ inner) (rest : List Char) :
    Written.withArguments? (inner ++ '}' :: rest) = none := by
  refine Written.withArguments?_of_stops ?_
  rw [pastWord_closed, trimStart_closed]
  refine stops_closed (by decide) _ _ fun c first => ?_
  have inside : c ∈ inner := ((trimStart_suffix _).trans (pastWord_suffix inner)).subset
    (List.mem_of_mem_head? first)
  exact beq_eq_false_iff_ne.2 fun same => bare (same ▸ inside)

variable {inner : List Char} (unclosed : '}' ∉ inner) (rest : List Char)
include unclosed

theorem close?_closed : close? (inner ++ '}' :: rest) =
    if (trimStart inner).isEmpty then some rest else none := by
  unfold close?
  rw [trimStart_closed]
  cases started : trimStart inner with
  | nil => rfl
  | cons c cs =>
    have inside : c ∈ inner := (trimStart_suffix inner).subset (started ▸ List.mem_cons_self ..)
    have other : c ≠ '}' := fun same => unclosed (same ▸ inside)
    rw [List.cons_append]
    split
    · rename_i same
      exact absurd (List.cons.inj same).1 other
    · rfl

theorem trailing?_closed : trailing? (inner ++ '}' :: rest) =
    (trailing? (inner ++ ['}'])).map fun found => (found.1, rest) := by
  have later : '}' ∉ (trimStart inner).dropWhile isRun := fun mem =>
    unclosed ((trimStart_suffix inner).subset ((List.dropWhile_suffix isRun).subset mem))
  unfold trailing?
  simp only [drop_takeWhile, trimStart_closed]
  rw [takeWhile_closed (by decide), takeWhile_closed (by decide), dropWhile_closed (by decide),
    dropWhile_closed (by decide), close?_closed later, close?_closed later]
  simp only [List.length_append, List.length_cons, Nat.add_right_cancel_iff]
  split
  · rfl
  · split <;> rfl

theorem ending?_closed : ending? (inner ++ '}' :: rest) =
    (ending? (inner ++ ['}'])).map fun found => (found.1, rest) := by
  unfold ending?
  rw [trailing?_closed unclosed rest, close?_closed unclosed, close?_closed unclosed]
  cases trailing? (inner ++ ['}']) with
  | some found => rfl
  | none => cases (trimStart inner).isEmpty <;> rfl

variable (bare : '(' ∉ inner)
include bare

theorem tail?_closed : tail? (inner ++ '}' :: rest) = (tail? (inner ++ ['}'])).map fun tail =>
    ⟨tail.filtersEnd ++ rest, tail.trailing, rest⟩ := by
  induction inner using (measure List.length).wf.induction with
  | _ inner ih =>
    by_cases bar : ∃ behind, trimStart inner = '|' :: behind
    · obtain ⟨behind, bar⟩ := bar
      have inside : behind <:+ inner := (List.suffix_cons '|' behind).trans
        (suffix_of_trimStart bar)
      have past : pastWord behind <:+ inner := (pastWord_suffix behind).trans inside
      have shorter : (pastWord behind).length < inner.length := by
        have opened := (suffix_of_trimStart bar).length_le
        have word := (pastWord_suffix behind).length_le
        simp only [List.length_cons] at opened
        omega
      have read : ∀ rest, tail? (inner ++ '}' :: rest) =
          (tail? (pastWord behind ++ '}' :: rest)).or
            ((trailing? (behind ++ '}' :: rest)).map fun found =>
              ⟨behind ++ '}' :: rest, found.1, found.2⟩) := by
        intro rest
        have noArguments := withArguments?_closed (fun mem => bare (inside.subset mem)) rest
        rw [Written.tail?_of_bar (by rw [trimStart_closed, bar, List.cons_append]), noArguments,
          Option.none_or, pastWord_closed]
      rw [read, read, ih _ shorter (fun mem => unclosed (past.subset mem))
        (fun mem => bare (past.subset mem)),
        trailing?_closed (fun mem => unclosed (inside.subset mem)), Option.map_or]
      simp [Option.map_map, Function.comp_def]
    · have stops : ∀ rest, Stops (· == '|') (trimStart (inner ++ '}' :: rest)) := by
        intro rest
        rw [trimStart_closed]
        refine stops_closed (by decide) _ _ fun c first => ?_
        obtain ⟨behind, started⟩ := List.head?_eq_some_iff.1 first
        exact beq_eq_false_iff_ne.2 fun same => bar ⟨behind, same ▸ started⟩
      rw [Written.tail?_of_ending (stops _), Written.tail?_of_ending (stops _),
        ending?_closed unclosed rest]
      simp [Option.map_map, Function.comp_def]

theorem body?_closed (leading : List Char) : body? leading (inner ++ '}' :: rest) =
    (body? leading (inner ++ ['}'])).map fun found => (found.1, rest) := by
  have past : ∀ {c}, c ∉ inner → c ∉ pastWord inner := fun other mem =>
    other ((pastWord_suffix inner).subset mem)
  rw [Written.body?_eq, Written.body?_eq, pastWord_closed, pastWord_closed,
    tail?_closed (past unclosed) rest (past bare), trimStart_closed, trimStart_closed,
    takeWhile_closed (by decide), takeWhile_closed (by decide)]
  cases found : tail? (pastWord inner ++ ['}']) with
  | none =>
    simp only [Option.map_none]
    rw [trailing?_closed unclosed rest]
    simp [Option.map_map, Function.comp_def]
  | some tail =>
    obtain ⟨filters, split⟩ := (tail?_suffix found).2
    have whole : pastWord inner ++ '}' :: rest = filters ++ (tail.filtersEnd ++ rest) := by
      rw [← List.append_assoc, split]
      simp
    simp only [Option.map_some]
    rw [whole, ← split]
    simp

theorem recognise?_closed : recognise? ('{' :: (inner ++ '}' :: rest)) =
    (recognise? ('{' :: (inner ++ ['}']))).map fun found => (found.1, rest) := by
  unfold recognise? behindBrace?
  simp only [drop_takeWhile]
  rw [takeWhile_closed (by decide), takeWhile_closed (by decide), dropWhile_closed (by decide),
    dropWhile_closed (by decide)]
  split
  · exact body?_closed unclosed rest bare []
  · have inside : inner.dropWhile isRun <:+ inner := List.dropWhile_suffix isRun
    cases started : inner.dropWhile isRun with
    | nil => simp [show isBlank '}' = false by decide]
    | cons c behind =>
      have later : behind <:+ inner := (List.suffix_cons c behind).trans (started ▸ inside)
      simp only [List.cons_append]
      split
      · exact body?_closed (fun mem => unclosed (later.subset mem)) rest
          (fun mem => bare (later.subset mem)) _
      · rfl

end Grammar

/-! ## 2. Braces and parentheses -/

namespace Written

/-- A character that is no brace. -/
def isInner (c : Char) : Bool := c != '{' && c != '}'

theorem isInner_of_class {p : Char → Bool} {c : Char} (holds : p c = true)
    (opening : p '{' = false := by decide) (closing : p '}' = false := by decide) :
    isInner c = true := by
  simp [isInner, ne_of_class holds opening, ne_of_class holds closing]

theorem Gap.inner (g : Gap) : ∀ c ∈ g.text, isInner c = true := fun c mem =>
  isInner_of_class (g.blank c mem)

theorem Run.inner (r : Run) : ∀ c ∈ r.text, isInner c = true := fun c mem =>
  isInner_of_class (r.run c mem)

theorem arguments_of_not_mem {fs : List Clause} (bare : '(' ∉ printClauses fs) :
    ∀ f ∈ fs, f.arguments = none := by
  intro f mem
  cases written : f.arguments with
  | none => rfl
  | some pair =>
    have inside : '(' ∈ f.print := by simp [Clause.print, Clause.printCall, written]
    exact absurd (List.mem_flatMap.2 ⟨f, mem, inside⟩) bare

theorem arguments_of_filterMap_call? {fs : List Clause} (none : fs.filterMap Clause.call? = []) :
    ∀ f ∈ fs, f.arguments = .none := by
  intro f mem
  have nothing := List.filterMap_eq_nil_iff.1 none f mem
  unfold Clause.call? Clause.printCall at nothing
  cases written : f.arguments with
  | none => rfl
  | some pair => simp [written] at nothing

/-- Only among arguments can filters hold a brace. -/
theorem isInner_of_mem_printClauses {fs : List Clause} (bare : ∀ f ∈ fs, f.arguments = none) :
    ∀ c ∈ printClauses fs, isInner c = true := by
  induction fs with
  | nil => simp [printClauses]
  | cons f fs ih =>
    obtain ⟨here, later⟩ := List.forall_mem_cons.1 bare
    simp only [printClauses_cons, Clause.printCall, here, List.forall_mem_append,
      List.forall_mem_cons]
    exact ⟨f.before.inner, by decide, f.behind.inner,
      fun c mem => isInner_of_class (f.isWord c mem), ih later⟩

theorem exists_inner_printEnd (trailing : Option Trailing) (behind : Gap) :
    ∃ inner, printEnd trailing behind = inner ++ ['}'] ∧ ∀ c ∈ inner, isInner c = true := by
  cases trailing with
  | none => exact ⟨behind.text, rfl, behind.inner⟩
  | some t =>
    refine ⟨t.gap.text ++ (t.run.text ++ behind.text), by simp [printEnd], ?_⟩
    simp only [List.forall_mem_append]
    exact ⟨t.gap.inner, t.run.inner, behind.inner⟩

/-- **A placeholder without arguments has no braces but its own.** -/
theorem Spelling.exists_inner (s : Spelling) (bare : ∀ f ∈ s.clauses, f.arguments = none) :
    ∃ inner, s.print = '{' :: (inner ++ ['}']) ∧ ∀ c ∈ inner, isInner c = true := by
  obtain ⟨closing, print, last⟩ := exists_inner_printEnd s.trailing s.behind
  have leading : ∀ c ∈ s.leadingText, isInner c = true := by
    unfold leadingText
    cases s.leading with
    | none => simp
    | some r => exact r.inner
  refine ⟨s.leadingText ++ (s.before.text ++ (s.name ++ (printClauses s.clauses ++ closing))),
    by simp [Spelling.print, print], ?_⟩
  simp only [List.forall_mem_append]
  exact ⟨leading, s.before.inner, fun c mem => isInner_of_class (s.isName c mem),
    isInner_of_mem_printClauses bare, last⟩

end Written

/-! ## 3. Placeholders that are found wherever they stand -/

namespace Template

/-- A text that is found as a placeholder in front of any rest, with no braces but its own. -/
structure Closed (p : Placeholder) : Prop where
  shape : ∃ inner, p.matched.toList = '{' :: (inner ++ ['}']) ∧
    ∀ c ∈ inner, Written.isInner c = true
  found : ∀ rest, ∃ f, next? (p.matched.toList ++ rest) = some f ∧
    f.skipped = [] ∧ f.rest = rest ∧ f.placeholder = p

/-- **Placeholders without parentheses are found wherever they stand.** -/
theorem closed_of_next? {cs : List Char} {f : Found} (found : next? cs = some f)
    (bare : '(' ∉ f.matched) : Closed f.placeholder := by
  obtain ⟨s, print, parts⟩ := exists_spelling_of_next? found
  have filters : '(' ∉ Written.printClauses s.clauses := fun mem =>
    bare (by simp [print, Written.Spelling.print, mem])
  obtain ⟨inner, shape, free⟩ := s.exists_inner (Written.arguments_of_not_mem filters)
  rw [← print] at shape
  rw [shape] at bare
  simp only [List.mem_cons, List.mem_append, not_or] at bare
  have unclosed : '}' ∉ inner := fun mem => absurd (free _ mem) (by decide)
  have recognised := recognise?_of_nextFrom found
  have whole := Found.matched_append_rest (next?_eq_some found).2
  rw [← whole, shape, List.cons_append, List.append_assoc, List.singleton_append,
    Grammar.recognise?_closed unclosed f.rest bare.2.1] at recognised
  obtain ⟨⟨read, after⟩, closed, same⟩ := Option.map_eq_some_iff.1 recognised
  cases same
  refine ⟨⟨inner, by rw [f.toList_matched_placeholder, shape], free⟩, fun rest => ?_⟩
  let g : Found := ⟨[], f.parts, inner ++ '}' :: rest, rest⟩
  have front : f.matched ++ rest = '{' :: g.opened := by simp [g, shape]
  have again : next? (f.matched ++ rest) = some g := by
    rw [front]
    unfold next? nextFrom
    rw [Grammar.recognise?_closed unclosed rest bare.2.1, closed]
    rfl
  have same : g.matched ++ rest = f.matched ++ rest :=
    (Found.matched_append_rest ⟨inner, rfl⟩).trans front.symm
  refine ⟨g, f.toList_matched_placeholder ▸ again, rfl, rfl, ?_⟩
  unfold Found.placeholder
  rw [List.append_cancel_right same]

end Template

end Stencil
