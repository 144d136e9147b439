/-
# Placeholders that are left as they are

A callback may give back each placeholder as it is written.  Whatever a walk does then, it does not
change the text: putting a placeholder in its own place changes nothing, nor does putting it in the
place of its copies (`replaceCopies_self`).  So the text as it stands is an invariant of the walk
(`spliceFrom_asWritten`).  It does not matter which placeholders are found and which are passed
over, and each step passes an opening brace of the template.

An engine that ignores missing values is such a callback if there are no values at all
(`replace_ignored`).
-/
import Stencil.Proofs.Failure

namespace Stencil

variable {σ : Type}

namespace Template

variable {τ ε : Type}

/-- A text put in its own place changes nothing. -/
theorem replaceCopies_self {needle : List Char} (nonempty : needle ≠ []) (escaped : Bool)
    (passed cs : List Char) :
    replaceCopies needle needle escaped passed cs = passed.reverse ++ cs := by
  fun_induction replaceCopies needle needle escaped passed cs with
  | case1 escaped passed => simp
  | case2 escaped passed c rest starts piece ih =>
    have same : piece = needle := ite_self needle
    rw [ih, same, eq_append_drop nonempty starts]
    simp
  | case3 escaped passed c rest other ih =>
    rw [ih]
    simp

theorem restAfter_matched (copies : Copies) (f : Found) :
    restAfter copies f f.matched = f.rest := by
  cases copies with
  | one => rfl
  | all => exact replaceCopies_self (List.cons_ne_nil _ _) false [] f.rest

/-- **A walk whose callback gives placeholders as they are written gives the text as it stands.**
What the callback leaves alone in its state (`keep`), the walk leaves alone. -/
theorem spliceFrom_asWritten (keep : τ → σ) (copies : Copies)
    {fill : Placeholder → StateM τ (Except ε String)}
    (written : ∀ p t, ∃ t', fill p t = (.ok p.matched, t') ∧ keep t' = keep t)
    {steps : Nat} (passed : List Char) {cs : List Char} (enough : cs.count '{' < steps) (t : τ) :
    ∃ t', spliceFrom copies fill steps ⟨passed, cs⟩ t = (some (.ok (passed.reverse ++ cs)), t') ∧
      keep t' = keep t := by
  induction steps generalizing passed cs t with
  | zero => omega
  | succ steps ih =>
    cases found : next? cs with
    | none => exact ⟨t, spliceFrom_none found, rfl⟩
    | some f =>
      obtain ⟨whole, closed⟩ := next?_eq_some found
      cases escaped : isEscaped (f.skipped ++ passed) with
      | true =>
        have fewer := count_opened_lt found
        obtain ⟨t', walk, kept⟩ := @ih ('{' :: (f.skipped ++ passed)) f.opened (by omega) t
        refine ⟨t', ?_, kept⟩
        rw [spliceFrom_escaped found escaped, walk, whole]
        simp
      | false =>
        have fewer := count_rest_lt found
        obtain ⟨t₁, filled, kept₁⟩ := written f.placeholder t
        obtain ⟨t', walk, kept⟩ := @ih (f.matched.reverse ++ (f.skipped ++ passed)) f.rest
          (by omega) t₁
        refine ⟨t', ?_, kept.trans kept₁⟩
        rw [spliceFrom_ok found escaped filled, f.toList_matched_placeholder, restAfter_matched,
          walk, whole, ← Found.matched_append_rest closed]
        simp

/-- A template whose placeholders are given as they are written. -/
theorem splice_asWritten (keep : τ → σ) (copies : Copies)
    {fill : Placeholder → StateM τ (Except ε String)}
    (written : ∀ p t, ∃ t', fill p t = (.ok p.matched, t') ∧ keep t' = keep t)
    {steps : Nat} {template : String} (enough : ownSteps template ≤ steps) (t : τ) :
    ∃ t', splice copies fill steps template t = (some (.ok template), t') ∧ keep t' = keep t := by
  obtain ⟨t', walk, kept⟩ := spliceFrom_asWritten keep copies written []
    (Nat.lt_of_succ_le enough) t
  refine ⟨t', ?_, kept⟩
  simp [splice, bind, StateT.bind, walk, pure, StateT.pure, Except.map]

end Template

namespace Engine

open Template

variable {e : Engine σ}

/-- Where missing values are ignored, a placeholder without a value is left as it is. -/
theorem fillWith_ignored (ignores : e.options.missing = .ignore) (template : String)
    (p : Placeholder) (key : MissingKey) (s : σ) :
    e.fillWith template p none key s = (.ok p.matched, s) ∧
      e.executedWith template p none key s = [] := by
  have nothing : e.options.missing.value? key s = (none, s) := by
    rw [ignores]
    rfl
  simp [fillWith, executedWith, bind, StateT.bind, nothing, pure, StateT.pure]

section
variable (ignores : e.options.missing = .ignore) (extra : Nat) (template : String) (s : σ)
include ignores

theorem replaceWithin_none_ignored :
    e.replaceWithin extra template .none s = (some (.ok template), s) := by
  have written : ∀ p t, ∃ t', e.fillPositional template [] p t = (.ok p.matched, t') ∧
      t'.2 = t.2 := by
    rintro p ⟨index, t⟩
    have left := (fillWith_ignored ignores template p (.index index) t).1
    exact ⟨(index + 1, t), by simp [fillPositional, left], rfl⟩
  obtain ⟨⟨index, s'⟩, walk, kept⟩ := splice_asWritten Prod.snd .one written
    (Nat.le_refl (ownSteps template)) (0, s)
  have state : s' = s := kept
  rw [state] at walk
  exact congrArg (fun r => (r.1, r.2.2)) walk

theorem replaceWithin_map_ignored :
    e.replaceWithin extra template (.map []) s = (some (.ok template), s) := by
  have written : ∀ p t, ∃ t', e.fillNamed template [] p t = (.ok p.matched, t') ∧ t' = t :=
    fun p t => ⟨t, (fillWith_ignored ignores template p (.name p.name) t).1, rfl⟩
  obtain ⟨s', walk, kept⟩ := splice_asWritten id .all written
    (Nat.le_add_right (ownSteps template) extra) s
  have state : s' = s := kept
  rw [state] at walk
  exact walk

theorem fillings_none_ignored :
    ∀ f ∈ e.fillings extra template .none s, f.executed = [] := by
  intro f mem
  obtain ⟨⟨p, index, t⟩, -, rfl⟩ := List.mem_map.1 mem
  exact (fillWith_ignored ignores template p (.index index) t).2

theorem fillings_map_ignored :
    ∀ f ∈ e.fillings extra template (.map []) s, f.executed = [] := by
  intro f mem
  obtain ⟨⟨p, t⟩, -, rfl⟩ := List.mem_map.1 mem
  exact (fillWith_ignored ignores template p (.name p.name) t).2

end

/-- **Without values, an engine that ignores missing ones leaves a template as it is**, be they by
position or by name: the text is the same, at no placeholder a stage is executed, and the state,
which would show what filters and handlers have done, is untouched. -/
theorem replace_ignored (ignores : e.options.missing = .ignore) (template : String) (s : σ) :
    ∀ values ∈ [Values.none, Values.map []],
      e.replace template values s = (some (.ok template), s) ∧
        ∀ f ∈ e.fillings stepLimit template values s, f.executed = [] :=
  List.forall_mem_cons.2
    ⟨⟨replaceWithin_none_ignored ignores stepLimit template s,
      fillings_none_ignored ignores stepLimit template s⟩,
    List.forall_mem_singleton.2
      ⟨replaceWithin_map_ignored ignores stepLimit template s,
        fillings_map_ignored ignores stepLimit template s⟩⟩

/-- An engine with filters that fail and vanish, and handlers that throw, all of which it would note
in its state. -/
def alert : Engine (List String) where
  options := {
    missing := .ignore
    onError := some fun _ _ _ _ log => (.ok (.throw none), log ++ ["failed"])
    onEmpty := some fun _ _ _ log => (.ok (.throw none), log ++ ["vanished"])
    source := some fun name log => (none, log ++ [name]) }
  filters := [("stumble", {
    name := "stumble"
    transform := fun _ _ ctx log => ((.error (.custom "lost"), ctx), log ++ ["stumble"]) })]

/-- Copies, an escaped one among them, a placeholder among arguments, and a brace that opens
nothing. -/
theorem replace_ignored_alert :
    let template := "{a|stumble}\\{a|stumble}{a|stumble}{b|f({a|stumble})}{}\x7b \x7ba"
    alert.options.missing = .ignore ∧
      alert.replace template .none [] = (some (.ok template), []) ∧
      alert.replace template (.map []) [] = (some (.ok template), []) ∧
      (alert.fillings stepLimit template .none []).map (·.placeholder.name) = ["a", "a", "b", ""] ∧
      ∀ f ∈ alert.fillings stepLimit template .none [], f.executed = [] := by
  intro template
  have ignores : alert.options.missing = .ignore := rfl
  obtain ⟨none, some⟩ := List.forall_mem_cons.1 (replace_ignored ignores template [])
  exact ⟨ignores, none.1, (some _ (List.mem_singleton_self _)).1, by decide +kernel, none.2⟩

end Engine

end Stencil
