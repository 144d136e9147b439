/-
# Copies that are read again

Where later copies of a placeholder are replaced along with it, inserted text comes to stand in the
rest of the template, and the walk reads it like the rest.  This file follows such a walk.

* `count_matched`: behind its own brace, only the filters of a placeholder can hold another one.
* `spliceFrom_ends`: texts with at most one opening brace each let a walk end within its own
  steps.
* `mark_le_length`: once the rest holds a *probe*, a placeholder of a name of its own, unescaped,
  the walk fills a placeholder with that probe in it, and the result shows that.
-/
import Stencil.Proofs.Locality
import Stencil.Proofs.Turns

namespace Stencil

open Stencil.Text

/-! ## 1. Placeholders without filters -/

namespace Template

/-- A placeholder without filters holds no opening brace but its own. -/
theorem count_matched {cs : List Char} {f : Found} (found : next? cs = some f)
    (bare : f.placeholder.chain = []) : f.matched.count '{' = 1 := by
  obtain ⟨s, print, parts⟩ := exists_spelling_of_next? found
  simp only [Found.placeholder, parts, Written.Spelling.parts,
    Written.readChain_printClauses] at bare
  obtain ⟨inner, shape, free⟩ := s.exists_inner (Written.arguments_of_filterMap_call? bare)
  have without : '{' ∉ inner := fun mem => absurd (free _ mem) (by decide)
  rw [print, shape]
  simp [List.count_eq_zero.2 without]

/-! ## 2. Walks with texts that are known beforehand -/

/-- A callback that answers each placeholder with a text of its own. -/
def answering {σ ε : Type} (text : Placeholder → String) (p : Placeholder) :
    StateM σ (Except ε String) := pure (.ok (text p))

section
variable {σ ε : Type} {copies : Copies} {steps : Nat} {passed cs : List Char} {s s' : σ}

/-- What a walk has written stays as it is. -/
theorem Walk.prefix_of_ok {fill : Placeholder → StateM σ (Except ε String)} {cursor : Cursor}
    {turns : List Turn} {result : Except ε (List Char)}
    (walk : Walk copies fill cursor s turns result s') :
    ∀ out, result = .ok out → cursor.passed.reverse <+: out := by
  induction walk with
  | done found =>
    rintro out ⟨⟩
    exact List.prefix_append _ _
  | skip found escaped later ih =>
    intro out ended
    have longer := ih out ended
    simp only [List.reverse_cons, List.reverse_append, List.append_assoc] at longer
    exact (List.prefix_append _ _).trans longer
  | fail found unescaped filled => exact fun out ended => nomatch ended
  | ask found unescaped filled later ih =>
    intro out ended
    have longer := ih out ended
    simp only [List.reverse_append, List.append_assoc] at longer
    exact (List.prefix_append _ _).trans longer

theorem prefix_of_spliceFrom {fill : Placeholder → StateM σ (Except ε String)} {out : List Char}
    (h : spliceFrom copies fill steps ⟨passed, cs⟩ s = (some (.ok out), s')) :
    passed.reverse <+: out := by
  obtain ⟨turns, walk, -⟩ := exists_walk_of_spliceFrom h
  exact walk.prefix_of_ok out rfl

/-- A walk that gets an answer in every turn does not fail, and it leaves the state alone. -/
theorem Walk.of_answering {text : Placeholder → String} {cursor : Cursor} {turns : List Turn}
    {result : Except ε (List Char)}
    (walk : Walk copies (answering text) cursor s turns result s') :
    (∃ out, result = .ok out) ∧ s' = s := by
  induction walk with
  | done found => exact ⟨⟨_, rfl⟩, rfl⟩
  | skip found escaped later ih => exact ih
  | fail found unescaped filled => cases filled
  | ask found unescaped filled later ih =>
    cases filled
    exact ih

/-- **Texts with at most one opening brace let a walk end**: each step passes a brace, and no copy
brings in more than it takes away. -/
theorem spliceFrom_ends {text : Placeholder → String}
    (few : ∀ p, (text p).toList.count '{' ≤ 1) (enough : cs.count '{' < steps) :
    ∃ out, spliceFrom copies (answering (ε := ε) text) steps ⟨passed, cs⟩ s =
      (some (.ok out), s) := by
  have bounded : copies = .all → ∀ p t text',
      ((answering text p : StateM σ (Except ε String)) t).1 = .ok text' →
        text'.toList.count '{' ≤ 1 := by
    rintro - p t text' ⟨⟩
    exact few p
  obtain ⟨turns, result, s', walk, short⟩ := exists_walk bounded ⟨passed, cs⟩ s
  obtain ⟨⟨out, rfl⟩, rfl⟩ := walk.of_answering
  exact ⟨out, walk.spliceFrom_eq (short.trans_lt enough)⟩

end

/-! ## 3. Probes -/

/-- A placeholder that is a name and nothing else. -/
def probe (name : Written.Word) : Written.Placeholder where
  leading := none
  before := .none
  name
  filters := []
  trailing := none
  behind := .none
  noWord := fun _ none => nomatch none
  parted := fun some => nomatch some
  apart := fun _ last => nomatch last

variable {name : Written.Word}

theorem print_probe (name : Written.Word) : (probe name).print = '{' :: (name.text ++ ['}']) := by
  simp [Written.Placeholder.print, Written.Placeholder.leadingText, Written.printFilters,
    Written.printEnd, Written.Gap.none, probe]

/-- The closing brace of a probe is its only one. -/
theorem eq_nil_of_print_probe {before behind : List Char}
    (h : (probe name).print = before ++ behind) (closing : before.getLast? = some '}') :
    behind = [] := by
  rcases List.eq_nil_or_concat behind with rfl | ⟨init, last, rfl⟩
  · rfl
  · have inside : '}' ∈ before := List.mem_of_getLast? closing
    have word : '}' ∉ name.text := fun mem => absurd (name.word _ mem) (by decide)
    have same := congrArg List.dropLast h
    rw [print_probe, List.concat_eq_append, ← List.append_assoc, ← List.cons_append,
      List.dropLast_concat, List.dropLast_concat] at same
    have : '}' ∈ '{' :: name.text := same ▸ List.mem_append_left init inside
    simp [word] at this

/-- A text that a placeholder's text starts, and that does not hold the probe, ends before the probe
that stands further on. -/
theorem eq_append_of_starts {needle u v : List Char} (closing : needle.getLast? = some '}')
    (foreign : ¬ (probe name).print <:+: needle)
    (h : needle <+: u ++ ((probe name).print ++ v)) : ∃ c, u = needle ++ c := by
  obtain ⟨w, eq⟩ := h
  rcases List.append_eq_append_iff.1 eq with ⟨c, before, -⟩ | ⟨c, before, behind⟩
  · exact ⟨c, before⟩
  · by_cases nothing : c = []
    · exact ⟨[], by simp [before, nothing]⟩
    · exfalso
      have last : c.getLast? = some '}' := by
        rw [before, List.getLast?_append, List.getLast?_eq_some_getLast nothing] at closing
        rw [List.getLast?_eq_some_getLast nothing]
        exact closing
      rcases List.append_eq_append_iff.1 behind with ⟨more, whole, -⟩ | ⟨more, whole, -⟩
      · exact foreign ⟨u, more, by rw [before, whole, List.append_assoc]⟩
      · rw [eq_nil_of_print_probe whole last, List.append_nil] at whole
        exact foreign ⟨u, [], by rw [before, whole, List.append_nil]⟩

/-- A text holds another one that no backslash precedes; `escaped` says whether a backslash stands
in front of the whole. -/
def Holds (inner : List Char) (escaped : Bool) (cs : List Char) : Prop :=
  ∃ u v, cs = u ++ (inner ++ v) ∧ escapedBehind escaped u = false

theorem Holds.append {inner : List Char} {escaped : Bool} {cs : List Char} (front : List Char)
    (h : Holds inner (escapedBehind escaped front) cs) : Holds inner escaped (front ++ cs) := by
  obtain ⟨u, v, rfl, unescaped⟩ := h
  exact ⟨front ++ u, v, by simp, by rw [escapedBehind_append, unescaped]⟩

section
variable {needle : List Char} {cs : List Char}

/-- Replacing a copy that no backslash precedes brings the replacement in. -/
theorem holds_of_hasCopy (closing : needle.getLast? = some '}') (replacement : List Char)
    {escaped : Bool} (h : hasCopy needle escaped cs = true) :
    Holds replacement escaped (replaceCopies needle replacement escaped [] cs) := by
  fun_induction hasCopy needle escaped cs with
  | case1 escaped => cases h
  | case2 escaped c rest starts ih =>
    rw [replaceCopies_copy starts]
    cases escaped with
    | false => exact ⟨[], _, rfl, rfl⟩
    | true =>
      rw [if_pos rfl]
      refine Holds.append needle ?_
      rw [escapedBehind_of_closing closing]
      exact ih (by simpa using h)
  | case3 escaped c rest other ih =>
    rw [replaceCopies_other other]
    exact Holds.append [c] (ih h)

/-- No copy starts in a text without opening braces. -/
theorem replaceCopies_append (opening : needle.head? = some '{') {replacement text : List Char}
    (none : '{' ∉ text) (escaped : Bool) :
    replaceCopies needle replacement escaped [] (text ++ cs) =
      text ++ replaceCopies needle replacement (escapedBehind escaped text) [] cs := by
  induction text generalizing escaped with
  | nil => rfl
  | cons c text ih =>
    simp only [List.mem_cons, not_or] at none
    have other : ¬ needle.isPrefixOf (c :: (text ++ cs)) = true := by
      cases needle with
      | nil => cases opening
      | cons d needle =>
        have brace : d = '{' := by simpa using opening
        simp [brace, none.1]
    have behind : escapedBehind escaped (c :: text) = escapedBehind (c == '\\') text :=
      escapedBehind_append escaped [c] text
    rw [List.cons_append, replaceCopies_other other, ih none.2, behind]
    rfl

section
variable (opening : needle.head? = some '{') (closing : needle.getLast? = some '}')
  (foreign : ¬ (probe name).print <:+: needle)
include opening closing foreign

/-- No copy of a text without the probe starts in the probe. -/
theorem replaceCopies_probe {replacement : List Char} (escaped : Bool) (v : List Char) :
    replaceCopies needle replacement escaped [] ((probe name).print ++ v) =
      (probe name).print ++ replaceCopies needle replacement false [] v := by
  have other : ¬ needle.isPrefixOf ((probe name).print ++ v) = true := by
    intro starts
    obtain ⟨c, nothing⟩ := @eq_append_of_starts name needle [] v closing foreign
      (List.isPrefixOf_iff_prefix.1 starts)
    have : needle = [] := (List.append_eq_nil_iff.1 nothing.symm).1
    rw [this] at opening
    cases opening
  have word : '{' ∉ name.text := fun mem => absurd (name.word _ mem) (by decide)
  have inside : '{' ∉ name.text ++ ['}'] := by simp [word]
  have last : ∀ escaped, escapedBehind escaped (name.text ++ ['}']) = false := by
    simp [escapedBehind]
  rw [print_probe, List.cons_append] at other ⊢
  rw [replaceCopies_other other, replaceCopies_append opening inside, last]
  rfl

/-- Replacing copies of a text without the probe leaves the probe where it is. -/
theorem Holds.replaceCopies {replacement : List Char}
    (plain : ∀ escaped, escapedBehind escaped replacement = false) {escaped : Bool}
    (h : Holds (probe name).print escaped cs) :
    Holds (probe name).print escaped
      (Template.replaceCopies needle replacement escaped [] cs) := by
  have nonempty : needle ≠ [] := by
    rintro rfl
    cases opening
  induction cs using (measure List.length).wf.induction generalizing escaped with
  | _ cs ih =>
    obtain ⟨u, v, rfl, unescaped⟩ := h
    cases u with
    | nil => exact ⟨[], _, replaceCopies_probe opening closing foreign escaped v, unescaped⟩
    | cons d u =>
      by_cases starts : needle.isPrefixOf (d :: (u ++ ((probe name).print ++ v))) = true
      · -- the copy ends in front of the probe
        obtain ⟨w, before⟩ := @eq_append_of_starts name needle (d :: u) v closing foreign
          (List.isPrefixOf_iff_prefix.1 starts)
        have whole := eq_append_drop nonempty starts
        rw [← List.cons_append, before, List.append_assoc] at whole
        have shorter : (w ++ ((probe name).print ++ v)).length <
            (d :: u ++ ((probe name).print ++ v)).length := by
          have := List.length_pos_iff.2 nonempty
          simp only [before, List.length_append]
          omega
        have piece : escapedBehind escaped (if escaped then needle else replacement) = false := by
          split
          · exact escapedBehind_of_closing closing escaped
          · exact plain escaped
        rw [before, escapedBehind_append, escapedBehind_of_closing closing] at unescaped
        rw [List.cons_append, replaceCopies_copy starts, ← List.append_cancel_left whole]
        refine Holds.append _ ?_
        rw [piece]
        exact ih _ shorter ⟨w, v, rfl, unescaped⟩
      · rw [List.cons_append, replaceCopies_other starts]
        refine Holds.append [d] (ih _ (Nat.lt_succ_self _) ⟨u, v, rfl, ?_⟩)
        exact (escapedBehind_append escaped [d] u).symm.trans unescaped

end

end

/-! ## 4. A walk over a probe -/

/-- The search stops at a probe at the latest. -/
theorem nextFrom_of_probe (name : Written.Word) (skipped u v : List Char) :
    ∃ f, nextFrom skipped (u ++ ((probe name).print ++ v)) = some f ∧
      ((∃ u₁ u₂, u = u₁ ++ '{' :: u₂ ∧ f.skipped = u₁.reverse ++ skipped ∧
          f.opened = u₂ ++ ((probe name).print ++ v)) ∨
        (f.skipped = u.reverse ++ skipped ∧ f.matched = (probe name).print)) := by
  induction u generalizing skipped with
  | nil =>
    have whole := Written.recognise?_print (probe name) v
    simp only [print_probe, List.nil_append, List.cons_append] at whole ⊢
    rw [nextFrom, whole]
    refine ⟨_, rfl, .inr ⟨rfl, ?_⟩⟩
    have taken : ((name.text ++ ['}']) ++ v).take (((name.text ++ ['}']) ++ v).length - v.length) =
        name.text ++ ['}'] := by
      rw [List.length_append, Nat.add_sub_cancel, List.take_left]
    exact congrArg (List.cons '{') taken
  | cons c u ih =>
    rw [List.cons_append, nextFrom]
    split
    · rename_i parts rest recognised
      obtain ⟨inner, eq⟩ := Grammar.recognise?_eq_some recognised
      have brace : c = '{' := (List.cons.inj eq).1
      exact ⟨_, rfl, .inl ⟨[], u, by rw [brace]; rfl, rfl, rfl⟩⟩
    · obtain ⟨f, found, place⟩ := ih (c :: skipped)
      refine ⟨f, found, ?_⟩
      rcases place with ⟨u₁, u₂, rfl, before, behind⟩ | ⟨before, exact'⟩
      · exact .inl ⟨c :: u₁, u₂, rfl, by simp [before], behind⟩
      · exact .inr ⟨by simp [before], exact'⟩

/-- A placeholder without the probe that opens in front of it also ends in front of it. -/
theorem holds_rest {cs u v : List Char} {f : Found} (found : next? cs = some f)
    (behind : f.opened = u ++ ((probe name).print ++ v))
    (foreign : ¬ (probe name).print <:+: f.matched) (unescaped : escapedBehind false u = false) :
    Holds (probe name).print false f.rest := by
  have closing := getLast?_matched found
  have shape := Found.matched_append_rest (next?_eq_some found).2
  rw [behind, ← List.cons_append] at shape
  obtain ⟨c, before⟩ := eq_append_of_starts closing foreign ⟨f.rest, shape⟩
  rw [before, List.append_assoc] at shape
  refine ⟨c, v, List.append_cancel_left shape, ?_⟩
  calc escapedBehind false c
    _ = escapedBehind (escapedBehind false f.matched) c := by rw [escapedBehind_of_closing closing]
    _ = escapedBehind false ('{' :: u) := by rw [← escapedBehind_append, ← before]
    _ = escapedBehind false u := escapedBehind_brace false [] u
    _ = false := unescaped

/-- **A probe in the rest shows in the result.**  A text that only placeholders with the probe in
them get is written by each walk that has the probe before it. -/
theorem mark_le_length {σ ε : Type} {text : Placeholder → String} {mark : String}
    (probed : ∀ cs f, next? cs = some f → (probe name).print <:+: f.matched →
      text f.placeholder = mark)
    (plain : ∀ p escaped, escapedBehind escaped (text p).toList = false)
    {steps : Nat} {passed cs out : List Char} {s s' : σ}
    (h : spliceFrom .all (answering (ε := ε) text) steps ⟨passed, cs⟩ s = (some (.ok out), s'))
    (holds : Holds (probe name).print (isEscaped passed) cs) :
    mark.toList.length ≤ out.length := by
  induction steps generalizing passed cs s with
  | zero => cases h
  | succ steps ih =>
    obtain ⟨u, v, rfl, unescaped⟩ := holds
    obtain ⟨f, found, place⟩ := nextFrom_of_probe name [] u v
    cases escaped : isEscaped (f.skipped ++ passed) with
    | true =>
      rw [spliceFrom_escaped found escaped] at h
      rcases place with ⟨u₁, u₂, rfl, -, behind⟩ | ⟨before, -⟩
      · rw [behind] at h
        rw [escapedBehind_brace] at unescaped
        exact ih h ⟨u₂, v, rfl, by rwa [isEscaped_cons]⟩
      · rw [before, List.append_nil, isEscaped_reverse_append, unescaped] at escaped
        cases escaped
    | false =>
      rw [spliceFrom_ok found escaped rfl] at h
      by_cases inside : (probe name).print <:+: f.matched
      · have written := (prefix_of_spliceFrom h).length_le
        rw [probed _ f found inside] at written
        simp only [List.length_reverse, List.length_append] at written
        omega
      · rcases place with ⟨u₁, u₂, rfl, -, behind⟩ | ⟨-, whole⟩
        · rw [escapedBehind_brace] at unescaped
          have left := holds_rest found behind inside unescaped
          refine ih h ?_
          rw [isEscaped_reverse_append, plain]
          exact left.replaceCopies rfl (getLast?_matched found) inside (plain f.placeholder)
        · exact absurd (whole ▸ List.infix_refl _) inside

end Template

end Stencil
