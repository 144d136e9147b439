/-
# Where the two ways to splice agree

Replacing every copy of a placeholder comes to the same as replacing only the one that was found, if
the text of no placeholder stands twice in the template.  Both walks then have the same text at
every step, whatever the callback writes into it: what is left to search is a piece of the template,
and a copy in it would be a second one (`hasCopy_rest`).

* `Once`: wherever the grammar recognises a placeholder, its text stands nowhere else.
* `callsFrom`: what a walk asks its callback for, each placeholder at its place in the text as it
  stands then (`asked_eq_calls`).
* `splice_all_eq_one`: the two walks ask for the same placeholders at the same places, and end
  alike.
-/
import Stencil.Proofs.Positional
import Stencil.Proofs.Rescan

namespace Stencil.Template

open Stencil.Text

variable {σ ε : Type}

/-! ## 1. Templates without repetition -/

/-- The placeholder that the grammar recognises at a place of a text, be it escaped, or inside
another one. -/
def foundAt? (cs : List Char) (n : Nat) : Option Found :=
  (Grammar.recognise? (cs.drop n)).map fun (parts, rest) =>
    ⟨(cs.take n).reverse, parts, (cs.drop n).tail, rest⟩

/-- Wherever the grammar recognises a placeholder, its text stands nowhere else. -/
def Once (cs : List Char) : Prop :=
  ∀ n < cs.length, ∀ m < cs.length, ∀ f ∈ foundAt? cs n, f.matched <+: cs.drop m → m = n

instance (cs : List Char) : Decidable (Once cs) :=
  inferInstanceAs (Decidable (∀ n < cs.length, ∀ m < cs.length, ∀ f ∈ foundAt? cs n,
    f.matched <+: cs.drop m → m = n))

/-- A copy that a text holds stands somewhere in it. -/
theorem infix_of_hasCopy {needle : List Char} {escaped : Bool} {cs : List Char}
    (h : hasCopy needle escaped cs = true) : needle <:+: cs := by
  fun_induction hasCopy needle escaped cs with
  | case1 escaped => cases h
  | case2 escaped c rest starts ih => exact (List.isPrefixOf_iff_prefix.1 starts).isInfix
  | case3 escaped c rest other ih => exact (ih h).trans (List.suffix_cons c rest).isInfix

/-- **Nothing is repeated behind a placeholder.** -/
theorem hasCopy_rest {template cs : List Char} {f : Found} (once : Once template)
    (inside : cs <:+ template) (found : next? cs = some f) :
    hasCopy f.matched false f.rest = false := by
  obtain ⟨whole, closed⟩ := next?_eq_some found
  have text := Found.matched_append_rest closed
  obtain ⟨before, split⟩ := inside
  obtain ⟨front, here⟩ : ∃ front, template = front ++ '{' :: f.opened :=
    ⟨before ++ f.skipped.reverse, by rw [← split, whole, List.append_assoc]⟩
  have recognised : foundAt? template front.length =
      some ⟨(template.take front.length).reverse, f.parts, f.opened, f.rest⟩ := by
    unfold foundAt?
    rw [here, List.drop_left, recognise?_of_nextFrom found]
    rfl
  rw [← Bool.not_eq_true]
  intro copy
  obtain ⟨u, v, again⟩ := infix_of_hasCopy copy
  -- the copy starts behind the placeholder, so it is a second one
  have there : template = (front ++ f.matched ++ u) ++ (f.matched ++ v) := by
    rw [here, ← text, ← again]
    simp
  have behind : template.drop (front ++ f.matched ++ u).length = f.matched ++ v := by
    rw [there, List.drop_left]
  have size : 0 < f.matched.length := Nat.succ_pos _
  have length := congrArg List.length there
  simp only [List.length_append] at length behind
  have same := once front.length (by omega) (front.length + f.matched.length + u.length)
    (by omega) _ recognised ⟨v, behind.symm⟩
  omega

/-! ## 2. What a walk asks for, and where -/

/-- The placeholders that a walk asks its callback for, each at its place in the text as it stands
then. -/
def callsFrom (copies : Copies) (fill : Placeholder → StateM σ (Except ε String)) :
    (steps : Nat) → Cursor → σ → List Located
  | 0, _, _ => []
  | steps + 1, cursor, s =>
    match next? cursor.rest with
    | none => []
    | some f =>
      let passed := f.skipped ++ cursor.passed
      if isEscaped passed then callsFrom copies fill steps ⟨'{' :: passed, f.opened⟩ s
      else
        f.located (byteLength passed) ::
          match fill f.placeholder s with
          | (.error _, _) => []
          | (.ok text, s) =>
            callsFrom copies fill steps
              ⟨text.toList.reverse ++ passed, restAfter copies f text.toList⟩ s

/-- What a walk over a template asks for. -/
def calls (copies : Copies) (fill : Placeholder → StateM σ (Except ε String)) (steps : Nat)
    (template : String) (s : σ) : List Located :=
  callsFrom copies fill steps ⟨[], template.toList⟩ s

section
variable {copies : Copies} {fill : Placeholder → StateM σ (Except ε String)} {steps : Nat}
  {passed cs : List Char} {f : Found} {s s' : σ}

theorem callsFrom_none (found : next? cs = none) :
    callsFrom copies fill (steps + 1) ⟨passed, cs⟩ s = [] := by
  simp [callsFrom, found]

theorem callsFrom_escaped (found : next? cs = some f)
    (escaped : isEscaped (f.skipped ++ passed) = true) :
    callsFrom copies fill (steps + 1) ⟨passed, cs⟩ s =
      callsFrom copies fill steps ⟨'{' :: (f.skipped ++ passed), f.opened⟩ s := by
  simp [callsFrom, found, escaped]

theorem callsFrom_error {e : ε} (found : next? cs = some f)
    (unescaped : isEscaped (f.skipped ++ passed) = false)
    (filled : fill f.placeholder s = (.error e, s')) :
    callsFrom copies fill (steps + 1) ⟨passed, cs⟩ s =
      [f.located (byteLength (f.skipped ++ passed))] := by
  simp [callsFrom, found, unescaped, filled]

theorem callsFrom_ok {text : String} (found : next? cs = some f)
    (unescaped : isEscaped (f.skipped ++ passed) = false)
    (filled : fill f.placeholder s = (.ok text, s')) :
    callsFrom copies fill (steps + 1) ⟨passed, cs⟩ s =
      f.located (byteLength (f.skipped ++ passed)) :: callsFrom copies fill steps
        ⟨text.toList.reverse ++ (f.skipped ++ passed), restAfter copies f text.toList⟩ s' := by
  simp [callsFrom, found, unescaped, filled]

/-- A walk that notes what it asks for notes its calls. -/
theorem spliceFrom_noting_eq_calls (seen : List Placeholder) :
    (spliceFrom copies (noting fill) steps ⟨passed, cs⟩ (seen, s)).2.1 =
      seen ++ (callsFrom copies fill steps ⟨passed, cs⟩ s).map Located.toPlaceholder := by
  induction steps generalizing passed cs s seen with
  | zero => simp [spliceFrom, callsFrom, pure, StateT.pure]
  | succ steps ih =>
    cases found : next? cs with
    | none =>
      rw [spliceFrom_none found, callsFrom_none found]
      simp
    | some f =>
      cases escaped : isEscaped (f.skipped ++ passed) with
      | true =>
        rw [spliceFrom_escaped found escaped, callsFrom_escaped found escaped]
        exact ih seen
      | false =>
        cases filled : fill f.placeholder s with
        | mk result s' =>
          have noted : noting fill f.placeholder (seen, s) =
              (result, (seen ++ [f.placeholder], s')) := by
            simp [noting, filled]
          cases result with
          | error e =>
            rw [spliceFrom_error found escaped noted, callsFrom_error found escaped filled]
            rfl
          | ok text =>
            rw [spliceFrom_ok found escaped noted, callsFrom_ok found escaped filled, ih]
            simp [Found.located]

end

/-- **The calls are what the callback is asked for.** -/
theorem asked_eq_calls (copies : Copies) (fill : Placeholder → StateM σ (Except ε String))
    (steps : Nat) (template : String) (s : σ) : asked copies fill steps template s =
      (calls copies fill steps template s).map Located.toPlaceholder := by
  have noted := @spliceFrom_noting_eq_calls σ ε copies fill steps [] template.toList s []
  simp only [asked, splice, bind, StateT.bind]
  exact noted.trans (List.nil_append _)

/-! ## 3. Two walks, step by step -/

section
variable {fill : Placeholder → StateM σ (Except ε String)} {steps : Nat}
  {template passed cs : List Char} {s : σ}

/-- **The two walks have the same text at every step.**  The invariant is that what is left to
search is the end of the template; what was written before may be anything. -/
theorem spliceFrom_all_eq_one (once : Once template) (inside : cs <:+ template) :
    spliceFrom .all fill steps ⟨passed, cs⟩ s = spliceFrom .one fill steps ⟨passed, cs⟩ s ∧
      callsFrom .all fill steps ⟨passed, cs⟩ s = callsFrom .one fill steps ⟨passed, cs⟩ s := by
  induction steps generalizing passed cs s with
  | zero => exact ⟨rfl, rfl⟩
  | succ steps ih =>
    cases found : next? cs with
    | none =>
      rw [spliceFrom_none found, spliceFrom_none found, callsFrom_none found, callsFrom_none found]
      exact ⟨rfl, rfl⟩
    | some f =>
      have opened : f.opened <:+ template := by
        have : '{' :: f.opened <:+ cs := (next?_eq_some found).1 ▸ List.suffix_append ..
        exact ((List.suffix_cons _ _).trans this).trans inside
      have rest : f.rest <:+ template :=
        ((List.suffix_cons _ _).trans (next?_eq_some found).2).trans opened
      cases escaped : isEscaped (f.skipped ++ passed) with
      | true =>
        rw [spliceFrom_escaped found escaped, spliceFrom_escaped found escaped,
          callsFrom_escaped found escaped, callsFrom_escaped found escaped]
        exact ih opened
      | false =>
        cases filled : fill f.placeholder s with
        | mk result s' =>
          cases result with
          | error e =>
            rw [spliceFrom_error found escaped filled, spliceFrom_error found escaped filled,
              callsFrom_error found escaped filled, callsFrom_error found escaped filled]
            exact ⟨rfl, rfl⟩
          | ok text =>
            have same : restAfter .all f text.toList = f.rest :=
              restAfter_eq_rest text.toList fun _ => hasCopy_rest once inside found
            rw [spliceFrom_ok found escaped filled, spliceFrom_ok found escaped filled,
              callsFrom_ok found escaped filled, callsFrom_ok found escaped filled, same]
            obtain ⟨walks, places⟩ :=
              @ih (text.toList.reverse ++ (f.skipped ++ passed)) f.rest s' rest
            exact ⟨walks, congrArg _ places⟩

/-- A walk that replaces one placeholder at a time ends within its own steps. -/
theorem spliceFrom_one_ends (enough : cs.count '{' < steps) :
    ∃ outcome s', spliceFrom .one fill steps ⟨passed, cs⟩ s = (some outcome, s') := by
  obtain ⟨turns, outcome, s', walk, short⟩ := @exists_walk σ ε .one fill
    (fun no => absurd no (by decide)) ⟨passed, cs⟩ s
  exact ⟨outcome, s', walk.spliceFrom_eq (short.trans_lt enough)⟩

end

/-- **Without repetition the two ways to splice agree**: for every callback they ask for the same
placeholders at the same places, and both end, with the same text or the same failure. -/
theorem splice_all_eq_one {template : String} (once : Once template.toList)
    (fill : Placeholder → StateM σ (Except ε String)) {steps : Nat}
    (enough : ownSteps template ≤ steps) (s : σ) :
    (∃ outcome s', splice .all fill steps template s = (some outcome, s') ∧
      splice .one fill steps template s = (some outcome, s')) ∧
    asked .all fill steps template s = asked .one fill steps template s ∧
    calls .all fill steps template s = calls .one fill steps template s := by
  have inside : template.toList <:+ template.toList := List.suffix_refl _
  obtain ⟨walks, places⟩ := @spliceFrom_all_eq_one σ ε fill steps template.toList [] template.toList
    s once inside
  obtain ⟨outcome, s', ends⟩ := @spliceFrom_one_ends σ ε fill steps [] template.toList s
    (Nat.lt_of_succ_le enough)
  refine ⟨⟨outcome.map String.ofList, s', ?_, ?_⟩, ?_, places⟩
  · simp only [splice, bind, StateT.bind, walks, ends]
    rfl
  · simp only [splice, bind, StateT.bind, ends]
    rfl
  · rw [asked_eq_calls, asked_eq_calls]
    exact congrArg _ places

/-- A callback whose texts hold placeholders of the template and end with a backslash. -/
def misleading (_ : Placeholder) : StateM Nat (Except Empty String) :=
  fun n => (.ok (if n = 0 then "{c}\\" else "{a}"), n + 1)

/-- A template with a placeholder behind a backslash and one inside another. -/
theorem splice_all_eq_one_nested :
    Once "\\{a}{b|f({d|g})} {c}".toList ∧ ownSteps "\\{a}{b|f({d|g})} {c}" = 5 ∧
      splice .all misleading 5 "\\{a}{b|f({d|g})} {c}" 0 =
        (some (.ok "\\{a}{c}\\ {a}"), 2) ∧
      splice .one misleading 5 "\\{a}{b|f({d|g})} {c}" 0 =
        (some (.ok "\\{a}{c}\\ {a}"), 2) := by
  have once : Once "\\{a}{b|f({d|g})} {c}".toList := by decide +kernel
  have own : ownSteps "\\{a}{b|f({d|g})} {c}" = 5 := by decide +kernel
  have one : splice .one misleading 5 "\\{a}{b|f({d|g})} {c}" 0 =
      (some (.ok "\\{a}{c}\\ {a}"), 2) := by
    with_unfolding_all rfl
  obtain ⟨⟨outcome, s', all, one'⟩, -⟩ := splice_all_eq_one once misleading (Nat.le_of_eq own) 0
  exact ⟨once, own, all.trans (one'.symm.trans one), one⟩

end Stencil.Template
