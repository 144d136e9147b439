/-
# The turns of a walk

`Template.spliceFrom` has a number of steps and gives `none` if they do not suffice.  This file says
what the walk does when nobody counts: `Walk` takes turns until no placeholder is left or its
callback fails, and each turn passes an escaped brace or asks for a placeholder.

* `Walk.spliceFrom_eq`, `exists_walk_of_spliceFrom`: the steps do not matter.  A walk is what any
  number of steps comes to, if there are more of them than turns.  So what holds of every walk is
  shown by induction on its turns.
* `exists_walk`: a walk ends, within as many turns as the rest has opening braces.  What bounds it
  is the number of opening braces behind the cursor: a turn passes one of them, what it inserts is
  in front of the cursor, and copies with at most one brace each bring in no more than they take
  away (`count_replaceCopies_le`).
* `splice_ends`: so the walk over a template ends, and there is just one.
-/
import Stencil.Proofs.Positional

namespace Stencil

variable {σ ε : Type}

namespace Template

/-! ## 1. Walks without a limit -/

/-- One turn of a walk. -/
inductive Turn
  /-- A brace behind a backslash is passed. -/
  | skip
  /-- The callback is asked for a placeholder. -/
  | ask (p : Placeholder)

/-- The placeholder that a turn asks for. -/
def Turn.asked? : Turn → Option Placeholder
  | skip => none
  | ask p => some p

/-- A walk from a place in a text and a state: the turns it takes, what it comes to, and the state
it leaves. -/
inductive Walk (copies : Copies) (fill : Placeholder → StateM σ (Except ε String)) :
    Cursor → σ → List Turn → Except ε (List Char) → σ → Prop
  /-- No placeholder is left. -/
  | done {passed cs : List Char} {s : σ} (found : next? cs = none) :
      Walk copies fill ⟨passed, cs⟩ s [] (.ok (passed.reverse ++ cs)) s
  | skip {passed cs : List Char} {s s' : σ} {f : Found} {turns : List Turn}
      {result : Except ε (List Char)} (found : next? cs = some f)
      (escaped : isEscaped (f.skipped ++ passed) = true)
      (later : Walk copies fill ⟨'{' :: (f.skipped ++ passed), f.opened⟩ s turns result s') :
      Walk copies fill ⟨passed, cs⟩ s (.skip :: turns) result s'
  /-- The callback fails. -/
  | fail {passed cs : List Char} {s s' : σ} {f : Found} {e : ε} (found : next? cs = some f)
      (unescaped : isEscaped (f.skipped ++ passed) = false)
      (filled : fill f.placeholder s = (.error e, s')) :
      Walk copies fill ⟨passed, cs⟩ s [.ask f.placeholder] (.error e) s'
  | ask {passed cs : List Char} {s s₁ s' : σ} {f : Found} {text : String} {turns : List Turn}
      {result : Except ε (List Char)} (found : next? cs = some f)
      (unescaped : isEscaped (f.skipped ++ passed) = false)
      (filled : fill f.placeholder s = (.ok text, s₁))
      (later : Walk copies fill
        ⟨text.toList.reverse ++ (f.skipped ++ passed), restAfter copies f text.toList⟩ s₁ turns
        result s') :
      Walk copies fill ⟨passed, cs⟩ s (.ask f.placeholder :: turns) result s'

section
variable {copies : Copies} {fill : Placeholder → StateM σ (Except ε String)} {cursor : Cursor}
  {s s' s'' : σ} {turns turns' : List Turn} {result result' : Except ε (List Char)} {steps : Nat}

/-! ## 2. A walk and its steps -/

/-- **More steps than turns are enough**, and then they do not matter. -/
theorem Walk.spliceFrom_eq (walk : Walk copies fill cursor s turns result s')
    (enough : turns.length < steps) :
    spliceFrom copies fill steps cursor s = (some result, s') := by
  induction walk generalizing steps with
  | done found =>
    obtain ⟨steps, rfl⟩ := Nat.exists_eq_add_of_lt enough
    exact spliceFrom_none found
  | skip found escaped later ih =>
    obtain ⟨steps, rfl⟩ := Nat.exists_eq_add_of_lt enough
    rw [spliceFrom_escaped found escaped]
    exact ih (by simp only [List.length_cons]; omega)
  | fail found unescaped filled =>
    obtain ⟨steps, rfl⟩ := Nat.exists_eq_add_of_lt enough
    exact spliceFrom_error found unescaped filled
  | ask found unescaped filled later ih =>
    obtain ⟨steps, rfl⟩ := Nat.exists_eq_add_of_lt enough
    rw [spliceFrom_ok found unescaped filled]
    exact ih (by simp only [List.length_cons]; omega)

/-- What some number of steps comes to is what a walk comes to, in no more turns. -/
theorem exists_walk_of_spliceFrom
    (ends : spliceFrom copies fill steps cursor s = (some result, s')) :
    ∃ turns, Walk copies fill cursor s turns result s' ∧ turns.length ≤ steps := by
  induction steps generalizing cursor s with
  | zero => cases ends
  | succ steps ih =>
    obtain ⟨passed, cs⟩ := cursor
    cases found : next? cs with
    | none =>
      rw [spliceFrom_none found] at ends
      cases ends
      exact ⟨[], .done found, Nat.zero_le _⟩
    | some f =>
      cases escaped : isEscaped (f.skipped ++ passed) with
      | true =>
        rw [spliceFrom_escaped found escaped] at ends
        obtain ⟨turns, later, few⟩ := ih ends
        exact ⟨_, .skip found escaped later, Nat.succ_le_succ few⟩
      | false =>
        obtain ⟨answer, s₁, filled⟩ : ∃ answer s₁, fill f.placeholder s = (answer, s₁) :=
          ⟨_, _, rfl⟩
        cases answer with
        | error e =>
          rw [spliceFrom_error found escaped filled] at ends
          cases ends
          exact ⟨_, .fail found escaped filled, Nat.succ_le_succ (Nat.zero_le _)⟩
        | ok text =>
          rw [spliceFrom_ok found escaped filled] at ends
          obtain ⟨turns, later, few⟩ := ih ends
          exact ⟨_, .ask found escaped filled later, Nat.succ_le_succ few⟩

/-- A walk is determined by where it starts. -/
theorem Walk.unique (walk : Walk copies fill cursor s turns result s')
    (other : Walk copies fill cursor s turns' result' s'') :
    turns' = turns ∧ result' = result ∧ s'' = s' := by
  induction walk generalizing turns' result' s'' with
  | done found => cases other <;> simp_all
  | skip found escaped later ih => cases other <;> grind
  | fail found unescaped filled => cases other <;> grind
  | ask found unescaped filled later ih => cases other <;> grind

/-- A callback that notes what it is asked for notes the turns in which it is asked. -/
theorem Walk.noting (walk : Walk copies fill cursor s turns result s') (seen : List Placeholder) :
    Walk copies (noting fill) cursor (seen, s) turns result
      (seen ++ turns.filterMap Turn.asked?, s') := by
  induction walk generalizing seen with
  | done found => simpa using Walk.done found
  | skip found escaped later ih => exact .skip found escaped (ih seen)
  | @fail passed cs s s' f e found unescaped filled =>
    have noted : Template.noting fill f.placeholder (seen, s) =
        (.error e, (seen ++ [f.placeholder], s')) := by
      simp [Template.noting, filled]
    exact .fail found unescaped noted
  | @ask passed cs s s₁ s' f text turns result found unescaped filled later ih =>
    have noted : Template.noting fill f.placeholder (seen, s) =
        (.ok text, (seen ++ [f.placeholder], s₁)) := by
      simp [Template.noting, filled]
    have further := ih (seen ++ [f.placeholder])
    rw [List.append_assoc] at further
    exact .ask found unescaped noted further

end

/-! ## 3. Replacing copies -/

section
variable {needle replacement : List Char} {escaped : Bool} {cs rest : List Char} {c : Char}

theorem length_behind_lt (needle rest : List Char) (c : Char) :
    (rest.drop (needle.length - 1)).length < (c :: rest).length := by
  simp only [List.length_drop, List.length_cons]
  omega

/-- What is in front of a text stays in front of it. -/
theorem replaceCopies_passed (passed : List Char) :
    replaceCopies needle replacement escaped passed cs =
      passed.reverse ++ replaceCopies needle replacement escaped [] cs := by
  induction cs using (measure List.length).wf.induction generalizing passed escaped with
  | _ cs ih =>
    cases cs with
    | nil => simp [replaceCopies]
    | cons c rest =>
      have shorter := length_behind_lt needle rest c
      rw [replaceCopies, replaceCopies]
      split
      · rw [ih _ shorter, ih _ shorter (_ ++ [])]
        simp
      · rw [ih rest (Nat.lt_succ_self _), ih rest (Nat.lt_succ_self _) [c]]
        simp

theorem replaceCopies_copy (starts : needle.isPrefixOf (c :: rest) = true) :
    replaceCopies needle replacement escaped [] (c :: rest) =
      (if escaped then needle else replacement) ++
        replaceCopies needle replacement false [] (rest.drop (needle.length - 1)) := by
  rw [replaceCopies, if_pos starts, replaceCopies_passed]
  simp

theorem replaceCopies_other (other : ¬ needle.isPrefixOf (c :: rest) = true) :
    replaceCopies needle replacement escaped [] (c :: rest) =
      c :: replaceCopies needle replacement (c == '\\') [] rest := by
  rw [replaceCopies, if_neg other, replaceCopies_passed]
  rfl

/-- Texts with at most one opening brace bring no more of them than the copies had. -/
theorem count_replaceCopies_le (brace : '{' ∈ needle) (few : replacement.count '{' ≤ 1) :
    (replaceCopies needle replacement escaped [] cs).count '{' ≤ cs.count '{' := by
  induction cs using (measure List.length).wf.induction generalizing escaped with
  | _ cs ih =>
    cases cs with
    | nil => simp [replaceCopies]
    | cons c rest =>
      by_cases starts : needle.isPrefixOf (c :: rest) = true
      · have behind := @ih _ (length_behind_lt needle rest c) false
        have one : 1 ≤ needle.count '{' := List.count_pos_iff.2 brace
        have piece : (if escaped then needle else replacement).count '{' ≤ needle.count '{' := by
          split
          · exact Nat.le_refl _
          · omega
        rw [replaceCopies_copy starts, eq_append_drop (List.ne_nil_of_mem brace) starts,
          List.count_append, List.count_append]
        omega
      · have behind := @ih rest (Nat.lt_succ_self _) (c == '\\')
        rw [replaceCopies_other starts, List.count_cons, List.count_cons]
        omega

end

/-! ## 4. Every walk ends -/

section
variable {copies : Copies} {fill : Placeholder → StateM σ (Except ε String)} {s s' : σ}
  {turns : List Turn} {result : Except ε (List Char)} {steps : Nat}

/-- A text with at most one opening brace brings no more of them into the rest. -/
theorem count_restAfter_le {f : Found} {text : List Char}
    (few : copies = .all → text.count '{' ≤ 1) :
    (restAfter copies f text).count '{' ≤ f.rest.count '{' := by
  cases copies with
  | one => exact Nat.le_refl _
  | all => exact count_replaceCopies_le (List.mem_cons_self ..) (few rfl)

/-- **A walk ends**, within as many turns as there are opening braces behind its cursor. -/
theorem exists_walk
    (few : copies = .all → ∀ p s text, (fill p s).1 = .ok text → text.toList.count '{' ≤ 1)
    (cursor : Cursor) (s : σ) :
    ∃ turns result s', Walk copies fill cursor s turns result s' ∧
      turns.length ≤ cursor.rest.count '{' := by
  -- the braces behind the cursor, of which each turn passes one and brings in none
  induction braces : cursor.rest.count '{' using Nat.strong_induction_on
    generalizing cursor s with
  | _ n ih =>
    subst braces
    obtain ⟨passed, cs⟩ := cursor
    cases found : next? cs with
    | none => exact ⟨[], _, _, .done found, Nat.zero_le _⟩
    | some f =>
      cases escaped : isEscaped (f.skipped ++ passed) with
      | true =>
        have fewer := count_opened_lt found
        obtain ⟨turns, result, s', later, bounded⟩ :=
          ih _ fewer ⟨'{' :: (f.skipped ++ passed), f.opened⟩ s rfl
        exact ⟨_, result, s', .skip found escaped later,
          (Nat.succ_le_succ bounded).trans (Nat.succ_le_of_lt fewer)⟩
      | false =>
        have fewer := count_rest_lt found
        obtain ⟨answer, s₁, filled⟩ : ∃ answer s₁, fill f.placeholder s = (answer, s₁) :=
          ⟨_, _, rfl⟩
        cases answer with
        | error e =>
          exact ⟨_, _, s₁, .fail found escaped filled, Nat.succ_le_of_lt (Nat.zero_lt_of_lt fewer)⟩
        | ok text =>
          have left : (restAfter copies f text.toList).count '{' ≤ f.rest.count '{' :=
            count_restAfter_le fun all => few all f.placeholder s text (by rw [filled])
          obtain ⟨turns, result, s', later, bounded⟩ := ih _ (left.trans_lt fewer)
            ⟨text.toList.reverse ++ (f.skipped ++ passed), restAfter copies f text.toList⟩ s₁ rfl
          exact ⟨_, result, s', .ask found escaped filled later,
            (Nat.succ_le_succ (bounded.trans left)).trans (Nat.succ_le_of_lt fewer)⟩

/-- The walk over a template, in enough steps. -/
theorem Walk.splice_eq {template : String}
    (walk : Walk copies fill ⟨[], template.toList⟩ s turns result s')
    (enough : turns.length < steps) :
    splice copies fill steps template s = (some (result.map String.ofList), s') := by
  simp only [splice, bind, StateT.bind, walk.spliceFrom_eq enough]
  rfl

end

/-- **The walk over a template ends.**  It passes escaped braces and calls its callback, together at
most as often as the template has opening braces, and with more steps than that the result is what
the walk comes to.  Replacing one placeholder at a time, this is so with every callback, and
replacing copies too, with every callback whose texts have no opening brace. -/
theorem splice_ends {copies : Copies} {fill : Placeholder → StateM σ (Except ε String)}
    (braceless : copies = .all → ∀ p s text, (fill p s).1 = .ok text → '{' ∉ text.toList)
    (template : String) (s : σ) :
    ∃ turns result s', Walk copies fill ⟨[], template.toList⟩ s turns result s' ∧
      (∀ turns' result' s'', Walk copies fill ⟨[], template.toList⟩ s turns' result' s'' →
        turns' = turns ∧ result' = result ∧ s'' = s') ∧
      turns.length ≤ template.toList.count '{' ∧
      ∀ steps, turns.length < steps →
        splice copies fill steps template s = (some (result.map String.ofList), s') ∧
          asked copies fill steps template s = turns.filterMap Turn.asked? := by
  have few : copies = .all → ∀ p s text, (fill p s).1 = .ok text → text.toList.count '{' ≤ 1 := by
    intro all p s text filled
    rw [List.count_eq_zero.2 (braceless all p s text filled)]
    exact Nat.zero_le 1
  obtain ⟨turns, result, s', walk, bounded⟩ := exists_walk few ⟨[], template.toList⟩ s
  refine ⟨turns, result, s', walk, fun _ _ _ other => walk.unique other, bounded,
    fun steps enough => ⟨walk.splice_eq enough, ?_⟩⟩
  rw [asked, (walk.noting []).splice_eq enough]
  rfl

/-- A callback that answers everything with one letter and counts its calls. -/
def lettering (_ : Placeholder) : StateM Nat (Except Empty String) := fun n => (.ok "a", n + 1)

/-- An escaped brace, a placeholder with a copy, and one more. -/
theorem splice_ends_copies :
    let template := "\\{x} {x}{x} {y}"
    (∀ p n text, (lettering p n).1 = .ok text → '{' ∉ text.toList) ∧
      template.toList.count '{' = 4 ∧
      ∃ turns result n, Walk .all lettering ⟨[], template.toList⟩ 0 turns result n ∧
        turns.length ≤ 4 ∧ (turns.filterMap Turn.asked?).map (·.name) = ["x", "y"] ∧
        (splice .all lettering 5 template 0).1.map Except.toOption = some (some "\\{x} aa a") ∧
        (splice .all lettering 5 template 0).2 = 2 := by
  intro template
  have braceless : ∀ p n text, (lettering p n).1 = .ok text → '{' ∉ text.toList := by
    intro p n text filled
    cases filled
    decide
  have braces : template.toList.count '{' = 4 := by decide +kernel
  obtain ⟨turns, result, n, walk, -, bounded, ends⟩ :=
    @splice_ends _ _ .all _ (fun _ => braceless) template 0
  obtain ⟨-, calls⟩ := ends 5 (by omega)
  have names : (asked .all lettering 5 template 0).map (·.name) = ["x", "y"] := by decide +kernel
  rw [calls] at names
  exact ⟨braceless, braces, turns, result, n, walk, braces ▸ bounded, names, by decide +kernel,
    by decide +kernel⟩

end Template

namespace Engine

open Template

/-- By position a template is filled or fails, whatever the values are. -/
theorem exists_replaceWithin_list (e : Engine σ) (template : String) (entries : List (Entry σ))
    (s : σ) : ∃ result, ∀ extra,
      (e.replaceWithin extra template (.list entries) s).1 = some result := by
  obtain ⟨turns, result, s', walk, bounded⟩ := @exists_walk _ _ .one
    (e.fillPositional template entries) (fun no => nomatch no) ⟨[], template.toList⟩ (0, s)
  have ends := walk.splice_eq (Nat.lt_succ_of_le bounded)
  exact ⟨result.map String.ofList, fun extra => congrArg Prod.fst ends⟩

end Engine

end Stencil
