/-
# Values by position

With values by position a walk replaces the placeholder that it has found and nothing else, so what
is left to search is always a piece of the template.  Two questions remain: which placeholders take
part, and what becomes of them.

* `visits_eq_placeholders_iff`: a walk visits the placeholders of the template, each at its place,
  exactly when no text that ends with a backslash is directly followed by a placeholder.  Such a
  text escapes the brace behind it, and all later values shift (`asked_behind_backslash`).
* `replace_list_eq`: where no text ends with a backslash, filling a template is an exact splice,
  and each value is taken once, in order, as far as there are placeholders.

What the text of a placeholder is to be (`Engine.textFor`) is said apart from the way in which it is
found while the placeholders are counted.
-/
import Stencil.Engine.Fill
import Stencil.Proofs.Order
import Stencil.Proofs.Walk

namespace Stencil

open Stencil.Text

namespace Template

variable {σ ε : Type}

/-! ## 1. The placeholders that a walk asks for -/

/-- A callback that also notes what it is asked for. -/
def noting (fill : Placeholder → StateM σ (Except ε String)) (p : Placeholder) :
    StateM (List Placeholder × σ) (Except ε String) :=
  fun (asked, s) => ((fill p s).1, (asked ++ [p], (fill p s).2))

/-- The placeholders that a walk asks a callback for, in order. -/
def asked (copies : Copies) (fill : Placeholder → StateM σ (Except ε String)) (steps : Nat)
    (template : String) (s : σ) : List Placeholder :=
  (splice copies (noting fill) steps template ([], s)).2.1

/-- A callback that never fails. -/
def succeeding (fill : Placeholder → StateM σ String) (p : Placeholder) :
    StateM σ (Except ε String) :=
  fun s => (.ok (fill p s).1, (fill p s).2)

/-! ## 2. The places that it visits -/

/-- A placeholder at its place in the template, and the text it got. -/
structure Visit where
  place : Located
  text : String

/-- The visits of a walk that replaces one placeholder at a time; `passed` is what it has written,
in reverse order, and `start` the place of the rest in the template. -/
def visitsFrom (fill : Placeholder → StateM σ String) (passed : List Char) (start : Nat)
    (cs : List Char) : StateM σ (List Visit) :=
  match _found : next? cs with
  | none => pure []
  | some f =>
    let here := start + byteLength f.skipped
    if isEscaped (f.skipped ++ passed) then
      visitsFrom fill ('{' :: (f.skipped ++ passed)) (here + 1) f.opened
    else do
      let text ← fill f.placeholder
      let later ← visitsFrom fill (text.toList.reverse ++ (f.skipped ++ passed))
        (here + byteLength f.matched) f.rest
      pure (⟨f.located here, text⟩ :: later)
termination_by cs.length
decreasing_by
  · exact next?_length_opened _found
  · exact next?_length_rest _found

/-- The visits of a walk over a template. -/
def visits (fill : Placeholder → StateM σ String) (template : String) (s : σ) : List Visit :=
  (visitsFrom fill [] 0 template.toList s).1

/-- The visits behind a placeholder that is being filled. -/
def visitsBehind (fill : Placeholder → StateM σ String) (passed : List Char) (start : Nat)
    (f : Found) : StateM σ (List Visit) := fun s =>
  visitsFrom fill ((fill f.placeholder s).1.toList.reverse ++ (f.skipped ++ passed))
    (start + byteLength f.skipped + byteLength f.matched) f.rest (fill f.placeholder s).2

section
variable {fill : Placeholder → StateM σ String} {passed cs : List Char} {f : Found}

theorem visitsFrom_none (start : Nat) (found : next? cs = none) :
    visitsFrom fill passed start cs = pure [] := by
  rw [visitsFrom]
  split
  · rfl
  · simp_all

theorem visitsFrom_escaped (start : Nat) (found : next? cs = some f)
    (escaped : isEscaped (f.skipped ++ passed) = true) :
    visitsFrom fill passed start cs =
      visitsFrom fill ('{' :: (f.skipped ++ passed)) (start + byteLength f.skipped + 1)
        f.opened := by
  rw [visitsFrom]
  split
  · simp_all
  · rename_i g again
    cases found.symm.trans again
    exact if_pos escaped

theorem visitsFrom_found (start : Nat) (found : next? cs = some f)
    (unescaped : isEscaped (f.skipped ++ passed) = false) :
    visitsFrom fill passed start cs = fun s =>
      (⟨f.located (start + byteLength f.skipped), (fill f.placeholder s).1⟩ ::
        (visitsBehind fill passed start f s).1, (visitsBehind fill passed start f s).2) := by
  rw [visitsFrom]
  split
  · simp_all
  · rename_i g again
    cases found.symm.trans again
    exact if_neg (by simp [unescaped])

end

/-- No visit is in front of the text that the walk searches, and each covers something. -/
theorem le_start_of_visit {fill : Placeholder → StateM σ String} {passed cs : List Char}
    {start : Nat} {s : σ} {v : Visit} (h : v ∈ (visitsFrom fill passed start cs s).1) :
    start ≤ v.place.start ∧ v.place.start < v.place.stop := by
  induction cs using (measure List.length).wf.induction generalizing passed start s with
  | _ cs ih =>
    cases found : next? cs with
    | none => simp [visitsFrom_none start found, pure, StateT.pure] at h
    | some f =>
      cases escaped : isEscaped (f.skipped ++ passed) with
      | true =>
        rw [visitsFrom_escaped start found escaped] at h
        have := ih f.opened (next?_length_opened found) h
        omega
      | false =>
        rw [visitsFrom_found start found escaped] at h
        rcases List.mem_cons.1 h with rfl | h
        · have := byteLength_matched_pos f
          simp only [Found.located]
          omega
        · have := ih f.rest (next?_length_rest found) h
          omega

/-! ## 3. When these are the placeholders of the template -/

/-- A walk asks for what it visits. -/
theorem spliceFrom_noting {fill : Placeholder → StateM σ String} {passed cs : List Char}
    {start steps : Nat} {seen : List Placeholder} {s : σ} (enough : cs.count '{' < steps) :
    (spliceFrom .one (noting (succeeding (ε := ε) fill)) steps ⟨passed, cs⟩ (seen, s)).2 =
      (seen ++ (visitsFrom fill passed start cs s).1.map (·.place.toPlaceholder),
        (visitsFrom fill passed start cs s).2) := by
  induction cs using (measure List.length).wf.induction generalizing passed start steps seen s with
  | _ cs ih =>
    obtain ⟨steps, rfl⟩ := Nat.exists_eq_add_of_lt enough
    cases found : next? cs with
    | none =>
      rw [spliceFrom_none found, visitsFrom_none start found]
      simp [pure, StateT.pure]
    | some f =>
      cases escaped : isEscaped (f.skipped ++ passed) with
      | true =>
        have := count_opened_lt found
        rw [spliceFrom_escaped found escaped, visitsFrom_escaped start found escaped]
        exact ih f.opened (next?_length_opened found) (by omega)
      | false =>
        have := count_rest_lt found
        rw [spliceFrom_ok found escaped rfl, visitsFrom_found start found escaped]
        have later := @ih f.rest (next?_length_rest found)
          ((fill f.placeholder s).1.toList.reverse ++ (f.skipped ++ passed))
          (start + byteLength f.skipped + byteLength f.matched) (cs.count '{' + steps)
          (seen ++ [f.placeholder]) (fill f.placeholder s).2 (by omega)
        refine later.trans ?_
        simp [visitsBehind, Found.located]

/-- Behind a text that escapes the placeholder there, the walk visits no place of that start. -/
theorem start_ne_of_visit_behind {fill : Placeholder → StateM σ String} {passed cs : List Char}
    {start : Nat} {s : σ} (escapes : isEscaped passed = true) {p : List Char} {q : Located}
    (opens : q ∈ placeholdersOf (piecesFrom p start cs)) (here : q.start = start) :
    ∀ v ∈ (visitsFrom fill passed start cs s).1, v.place.start ≠ start := by
  intro v mem same
  cases found : next? cs with
  | none => simp [visitsFrom_none start found, pure, StateT.pure] at mem
  | some f =>
    have passedOver := skipped_eq_nil_of_mem found opens here
    have escaped : isEscaped (f.skipped ++ passed) = true := by simpa [passedOver] using escapes
    rw [visitsFrom_escaped start found escaped] at mem
    have := le_start_of_visit mem
    omega

/-- One step of `visitsFrom_eq_iff`: a place in front takes no part in the condition. -/
theorem clear_cons_iff {p : Located} {text : String} {ps : List Located} {vs : List Visit}
    (proper : p.start < p.stop) (later : ∀ v ∈ vs, p.stop ≤ v.place.start ∧
      v.place.start < v.place.stop) :
    (∀ v ∈ ⟨p, text⟩ :: vs, EndsInBackslash v.text → ∀ q ∈ p :: ps, q.start ≠ v.place.stop) ↔
      (EndsInBackslash text → ∀ q ∈ ps, q.start ≠ p.stop) ∧
        ∀ v ∈ vs, EndsInBackslash v.text → ∀ q ∈ ps, q.start ≠ v.place.stop := by
  constructor
  · intro h
    refine ⟨fun ends q mem => ?_, fun v mem ends q inside => ?_⟩
    · exact h ⟨p, text⟩ (List.mem_cons_self ..) ends q (List.mem_cons_of_mem _ mem)
    · exact h v (List.mem_cons_of_mem _ mem) ends q (List.mem_cons_of_mem _ inside)
  · rintro ⟨head, tail⟩ v mem ends q inside
    rcases List.mem_cons.1 mem with rfl | behind
    · rcases List.mem_cons.1 inside with rfl | inside
      · exact Nat.ne_of_lt proper
      · exact head ends q inside
    · rcases List.mem_cons.1 inside with rfl | inside
      · have := later v behind
        omega
      · exact tail v behind ends q inside

/-- The walk visits the placeholders of the rest exactly when no text hides one of them. -/
theorem visitsFrom_eq_iff {fill : Placeholder → StateM σ String} {passed passed' : List Char}
    {start : Nat} {cs : List Char} {s : σ} (agrees : Agrees cs passed passed') :
    (visitsFrom fill passed' start cs s).1.map Visit.place =
        placeholdersOf (piecesFrom passed start cs) ↔
      ∀ v ∈ (visitsFrom fill passed' start cs s).1, EndsInBackslash v.text →
        ∀ q ∈ placeholdersOf (piecesFrom passed start cs), q.start ≠ v.place.stop := by
  fun_induction piecesFrom passed start cs generalizing passed' s with
  | case1 passed start cs found =>
    simp [visitsFrom_none start found, pure, StateT.pure]
  | case2 passed start cs f found here escaped =>
    rename_i ih
    have escaped' := agrees.escaped found escaped
    rw [visitsFrom_escaped start found escaped', placeholdersOf_literal]
    exact ih (agrees_of_eq (by simp))
  | case3 passed start cs f found here unescaped =>
    rename_i ih
    have unescaped' := agrees.unescaped found unescaped
    have proper : (f.located here).start < (f.located here).stop := by
      have := byteLength_matched_pos f
      simp only [Found.located]
      omega
    have first : (visitsFrom fill passed' start cs s).1 =
        ⟨f.located here, (fill f.placeholder s).1⟩ :: (visitsBehind fill passed' start f s).1 := by
      rw [visitsFrom_found start found unescaped']
    have later : ∀ v ∈ (visitsBehind fill passed' start f s).1,
        (f.located here).stop ≤ v.place.start ∧ v.place.start < v.place.stop :=
      fun v mem => le_start_of_visit mem
    rw [first, placeholdersOf_literal, placeholdersOf_placeholder, clear_cons_iff proper later]
    simp only [List.map_cons, List.cons.injEq, true_and]
    by_cases clear : EndsInBackslash (fill f.placeholder s).1 →
        ∀ q ∈ placeholdersOf (piecesFrom ['}'] (here + byteLength f.matched) f.rest),
          q.start ≠ (f.located here).stop
    · exact (ih (agrees_behind _ unescaped' clear)).trans ⟨fun h => ⟨clear, h⟩, fun h => h.2⟩
    · refine iff_of_false (fun same => clear fun ends q inside here' => ?_) (fun h => clear h.1)
      -- the placeholder that the text hides is not among the visits behind it
      have escapes := (isEscaped_inserted (fill f.placeholder s).1 unescaped').2 ends
      rw [← same] at inside
      obtain ⟨v, mem, rfl⟩ := List.mem_map.1 inside
      rw [same] at inside
      exact start_ne_of_visit_behind escapes inside here' v mem here'

/-- No text that ends with a backslash is directly followed by a placeholder. -/
def NoneHidden (vs : List Visit) (ps : List Located) : Prop :=
  ∀ v ∈ vs, EndsInBackslash v.text → ∀ q ∈ ps, q.start ≠ v.place.stop

/-- What a walk asks for is what it visits. -/
theorem asked_eq_visits (fill : Placeholder → StateM σ String) (template : String) (s : σ) :
    asked .one (succeeding (ε := ε) fill) (ownSteps template) template s =
      (visits fill template s).map (·.place.toPlaceholder) := by
  have noted := @spliceFrom_noting σ ε fill [] template.toList 0 (ownSteps template) [] s
    (Nat.lt_succ_self _)
  simp only [asked, splice, bind, StateT.bind]
  exact (congrArg Prod.fst noted).trans (List.nil_append _)

/-- **A walk takes the placeholders of the template exactly when none is hidden.**  What the
callback is asked for are the visits.  They are the placeholders of the template, each at its place,
if and only if no text that ends with a backslash is directly followed by one of those; and then the
callback is asked for just these, whatever else the texts hold.  The places matter: a placeholder
that was passed over may stand again further on, as the same text. -/
theorem visits_eq_placeholders_iff (fill : Placeholder → StateM σ String) (template : String)
    (s : σ) :
    asked .one (succeeding (ε := ε) fill) (ownSteps template) template s =
        (visits fill template s).map (·.place.toPlaceholder) ∧
      ((visits fill template s).map Visit.place = placeholders template.toList ↔
        NoneHidden (visits fill template s) (placeholders template.toList)) ∧
      (NoneHidden (visits fill template s) (placeholders template.toList) →
        asked .one (succeeding (ε := ε) fill) (ownSteps template) template s =
          (placeholders template.toList).map Located.toPlaceholder) := by
  have exact : (visits fill template s).map Visit.place = placeholders template.toList ↔
      NoneHidden (visits fill template s) (placeholders template.toList) :=
    visitsFrom_eq_iff (agrees_of_eq rfl)
  refine ⟨asked_eq_visits fill template s, exact, fun open' => ?_⟩
  rw [asked_eq_visits, ← exact.2 open', List.map_map]
  rfl

/-- A text that ends with a backslash hides the placeholder behind it: of two that touch, the second
is never asked for. -/
theorem asked_behind_backslash :
    asked .one (succeeding (ε := Empty) fun _ => (pure "\\" : StateM Unit String))
        (ownSteps "{}{}") "{}{}" () ≠
      (placeholders "{}{}".toList).map Located.toPlaceholder := by
  intro same
  exact absurd (congrArg List.length same) (by decide +kernel)

end Template

/-! ## 4. Filling a template with values in order -/

variable {σ : Type}

namespace Engine

/-- The text of a placeholder, with the value given for it or without one.  It is what its chain
makes, in a fresh context, of that value, or of what stands in for a missing one: the empty text, or
the answer about its key.  Where missing values are ignored it is the placeholder as it is written,
and the chain does not run. -/
def textFor (e : Engine σ) (template : String) (key : MissingKey) (p : Placeholder) :
    Option (Entry σ) → StateM σ (Except Error String)
  | some entry => fun s => e.run template p (entry.resolve s).1 (entry.resolve s).2
  | none =>
    match e.options.missing with
    | .default => e.run template p (.string "")
    | .ask answer => fun s => e.run template p (answer key s).1 (answer key s).2
    | .ignore => fun s => (.ok p.matched, s)

theorem fillWith_eq_textFor (e : Engine σ) (template : String) (p : Placeholder)
    (given? : Option (Entry σ)) (key : MissingKey) :
    e.fillWith template p given? key = e.textFor template key p given? := by
  cases given? with
  | some entry => rfl
  | none =>
    funext s
    unfold fillWith textFor
    cases e.options.missing <;> rfl

/-- The text of a placeholder with values by position: the one given for it is that of its own
position. -/
def fragment (e : Engine σ) (template : String) (entries : List (Entry σ)) (pk : Located × Nat) :
    StateM σ (Except Error String) :=
  e.textFor template (.index pk.2) pk.1.toPlaceholder entries[pk.2]?

/-- The texts of the placeholders of a template in order, up to the first that fails. -/
def fragments (e : Engine σ) (template : String) (entries : List (Entry σ)) :
    StateM σ (Template.Answers Error) :=
  Template.answers (e.fragment template entries) (Template.placeholders template.toList).zipIdx

end Engine

/-- How many items were asked for, the one that failed included. -/
def Template.Answers.count {ε : Type} (a : Template.Answers ε) : Nat :=
  a.texts.length + if a.failure.isSome then 1 else 0

theorem Template.Answers.count_cons {ε : Type} (a : Template.Answers ε) (text : String) :
    { a with texts := text :: a.texts }.count = a.count + 1 := by
  simp only [Template.Answers.count, List.length_cons]
  omega

/-- Without a failure every item was asked for. -/
theorem Template.count_of_success {ε α : Type} {ask : α → StateM σ (Except ε String)}
    {items : List α} {s : σ} (h : (Template.answers ask items s).1.failure = none) :
    (Template.answers ask items s).1.count = items.length := by
  induction items generalizing s with
  | nil => rfl
  | cons a rest ih =>
    obtain ⟨result, s', asked⟩ : ∃ result s', ask a s = (result, s') := ⟨_, _, rfl⟩
    cases result with
    | error e => simp [Template.answers_error asked] at h
    | ok text =>
      rw [Template.answers_ok asked] at h ⊢
      rw [Template.Answers.count_cons, ih h, List.length_cons]

/-- An observer who sees only when an entry is taken: that notes the position of the entry, and
running a chain of the template or asking for a missing value notes nothing. -/
structure Observes (e : Engine σ) (template : String) (entries : List (Entry σ))
    (taken : σ → List Nat) : Prop where
  run : ∀ p ∈ Template.placeholders template.toList, ∀ v s,
    taken (e.run template p.toPlaceholder v s).2 = taken s
  missing : ∀ key s, taken (e.options.missing.value? key s).2 = taken s
  resolve : ∀ k entry, entries[k]? = some entry → ∀ s, taken (entry.resolve s).2 = taken s ++ [k]

namespace Engine

open Template

variable {e : Engine σ} {template : String} {entries : List (Entry σ)}

/-- The position of a placeholder takes the place of the count in the state. -/
theorem answers_fillPositional (ps : List Located) (k : Nat) (s : σ) :
    (answers (e.fillPositional template entries) (ps.map Located.toPlaceholder) (k, s)).1 =
        (answers (e.fragment template entries) (ps.zipIdx k) s).1 ∧
      (answers (e.fillPositional template entries) (ps.map Located.toPlaceholder) (k, s)).2.2 =
        (answers (e.fragment template entries) (ps.zipIdx k) s).2 := by
  induction ps generalizing k s with
  | nil => exact ⟨rfl, rfl⟩
  | cons p ps ih =>
    obtain ⟨result, s', filled⟩ : ∃ result s',
        e.fragment template entries (p, k) s = (result, s') := ⟨_, _, rfl⟩
    have counted : e.fillPositional template entries p.toPlaceholder (k, s) =
        (result, (k + 1, s')) := by
      have direct := e.fillWith_eq_textFor template p.toPlaceholder entries[k]? (.index k)
      have same : e.textFor template (.index k) p.toPlaceholder entries[k]? s = (result, s') :=
        filled
      simp [fillPositional, direct, same]
    rw [List.map_cons, List.zipIdx_cons]
    cases result with
    | error err =>
      rw [answers_error counted, answers_error filled]
      exact ⟨rfl, rfl⟩
    | ok text =>
      obtain ⟨same, state⟩ := ih (k + 1) s'
      rw [answers_ok counted, answers_ok filled, same]
      exact ⟨rfl, state⟩

/-! ## 5. Which values are taken -/

variable {taken : σ → List Nat}

/-- A placeholder takes the value of its position, if there is one. -/
theorem taken_fragment (o : Observes e template entries taken) {p : Located}
    (inside : p ∈ placeholders template.toList) (k : Nat) (s : σ) :
    taken (e.fragment template entries (p, k) s).2 =
      taken s ++ if k < entries.length then [k] else [] := by
  unfold fragment textFor
  cases supplied : entries[k]? with
  | some entry =>
    have within : k < entries.length := (List.getElem?_eq_some_iff.1 supplied).1
    rw [if_pos within, ← o.resolve k entry supplied s]
    exact o.run p inside _ _
  | none =>
    have beyond : ¬ k < entries.length := by simpa using supplied
    have answered := o.missing (.index k) s
    rw [if_neg beyond, List.append_nil]
    cases missing : e.options.missing with
    | default => exact o.run p inside _ _
    | ignore => rfl
    | ask answer =>
      rw [missing] at answered
      exact (o.run p inside _ _).trans answered

/-- Placeholders take the values of their positions, one after another. -/
theorem taken_answers (o : Observes e template entries taken) {ps : List Located}
    (inside : ∀ p ∈ ps, p ∈ placeholders template.toList) (k : Nat) (s : σ) :
    taken (answers (e.fragment template entries) (ps.zipIdx k) s).2 = taken s ++
      (List.range' k (answers (e.fragment template entries) (ps.zipIdx k) s).1.count).filter
        (· < entries.length) := by
  induction ps generalizing k s with
  | nil => simp [Answers.count]
  | cons p ps ih =>
    obtain ⟨result, s', filled⟩ : ∃ result s',
        e.fragment template entries (p, k) s = (result, s') := ⟨_, _, rfl⟩
    have noted := taken_fragment o (inside p (List.mem_cons_self ..)) k s
    rw [filled] at noted
    rw [List.zipIdx_cons]
    cases result with
    | error err =>
      rw [answers_error filled, noted]
      simp [Answers.count, List.filter_cons]
    | ok text =>
      rw [answers_ok filled, ih fun q later => inside q (List.mem_cons_of_mem _ later), noted,
        Answers.count_cons, List.range'_succ, List.filter_cons, List.append_assoc]
      split <;> simp_all

/-- **With values in order, filling is an exact splice.**  If no text ends with a backslash, the
result is the template with its placeholders replaced by their texts and everything else as it
stands; if one of them fails, it is the error of the first that does, and nothing behind it runs.
Each value with a placeholder that was reached is taken once, in order, and no other is. -/
theorem replace_list_eq (s : σ)
    (plain : ∀ text ∈ (e.fragments template entries s).1.texts, ¬ EndsInBackslash text) :
    e.replace template (.list entries) s =
        (some (((e.fragments template entries s).1.outcome (pieces template.toList)).map
          String.ofList), (e.fragments template entries s).2) ∧
      ((e.fragments template entries s).1.failure = none →
        (e.fragments template entries s).1.count = (placeholders template.toList).length) ∧
      ∀ taken, Observes e template entries taken →
        taken (e.replace template (.list entries) s).2 = taken s ++
          (List.range (e.fragments template entries s).1.count).filter (· < entries.length) := by
  have counted : (answersTo (e.fillPositional template entries) (pieces template.toList) (0, s)).1 =
        (e.fragments template entries s).1 ∧
      (answersTo (e.fillPositional template entries) (pieces template.toList) (0, s)).2.2 =
        (e.fragments template entries s).2 :=
    answers_fillPositional (placeholders template.toList) 0 s
  have clear : Clear (placeholders template.toList)
      (answersTo (e.fillPositional template entries) (pieces template.toList) (0, s)).1.texts := by
    intro pt mem ends
    rw [counted.1] at mem
    exact absurd ends (plain pt.2 (List.of_mem_zip mem).2)
  have onlyOne : Copies.one = .all → Unrepeated (pieces template.toList) := fun all => nomatch all
  have walk := splice_eq_answers (Nat.le_refl (ownSteps template)) onlyOne clear
  have filled : e.replace template (.list entries) s =
      (some (((e.fragments template entries s).1.outcome (pieces template.toList)).map
        String.ofList), (e.fragments template entries s).2) := by
    rw [← counted.1, ← counted.2]
    exact congrArg (fun r => (r.1, r.2.2)) walk
  refine ⟨filled, fun succeeded => ?_, fun taken o => ?_⟩
  · exact (count_of_success succeeded).trans List.length_zipIdx
  · rw [filled, List.range_eq_range']
    exact taken_answers o (fun _ inside => inside) 0 s

/-- Values that note when they are taken. -/
def noted (texts : List String) : List (Entry (List Nat)) :=
  texts.mapIdx fun k text => .lazy fun log => (.string text, log ++ [k])

/-- An engine with the built-in operations alone that does not put up with their faults. -/
def cashier (missing : Missing (List Nat)) : Engine (List Nat) where
  options := { missing, onError := some fun _ _ _ _ => pure (.ok (.throw none)) }

/-- What stands in for a missing value is its position. -/
def position : Missing (List Nat) := .ask fun
  | .index k => pure (.string (natText k))
  | .name name => pure (.string name)

/-- A stage of a built-in operation. -/
def IsOperation (stage : Stage (List Nat)) : Prop :=
  ∃ name, stage.definition = { name, transform := .pure (Operation.apply name) }

section
variable (missing : Missing (List Nat))

theorem resolveAll_cashier (chain : List Call) (log : List Nat) :
    ∃ stages, (cashier missing).resolveAll chain log = (stages, log) ∧
      ∀ stage ∈ stages, IsOperation stage := by
  induction chain with
  | nil => exact ⟨[], rfl, fun _ no => absurd no List.not_mem_nil⟩
  | cons call later ih =>
    obtain ⟨stages, resolved, all⟩ := ih
    have found : (cashier missing).resolve call.name log = (Operation.definition? call.name, log) :=
      rfl
    simp only [resolveAll, bind, StateT.bind, found, resolved]
    unfold Operation.definition?
    split
    · exact ⟨_, rfl, List.forall_mem_cons.2 ⟨⟨call.name, rfl⟩, all⟩⟩
    · exact ⟨stages, rfl, all⟩

/-- An operation notes nothing and installs nothing, and neither does the handler that throws. -/
theorem runStage_cashier {stage : Stage (List Nat)} (h : IsOperation stage)
    {ctx : Context (List Nat)} (installed : ctx.onError = none ∧ ctx.onEmpty = none)
    (value : Value) (log : List Nat) :
    ∃ flow ctx', (cashier missing).runStage stage ctx value log = ((flow, ctx'), log) ∧
      ctx'.onError = none ∧ ctx'.onEmpty = none := by
  obtain ⟨name, same⟩ := h
  obtain ⟨onError, onEmpty⟩ := installed
  simp only [runStage, same, Transform.pure, Defaults.evaluate, bind, StateT.bind, pure,
    StateT.pure]
  generalize Operation.apply name value _ = result
  cases result with
  | error fault =>
    simp only [StateT.bind, handleFault, errorHandler?, onError, cashier]
    exact ⟨_, _, rfl, rfl, onEmpty⟩
  | ok output =>
    dsimp only
    split
    · exact ⟨_, _, rfl, onError, onEmpty⟩
    · simp only [StateT.bind, handleEmpty, emptyHandler?, onEmpty, cashier]
      exact ⟨_, _, rfl, onError, rfl⟩

theorem runStages_cashier {stages : List (Stage (List Nat))}
    (all : ∀ stage ∈ stages, IsOperation stage) {ctx : Context (List Nat)}
    (installed : ctx.onError = none ∧ ctx.onEmpty = none) (value : Value) (log : List Nat) :
    ((cashier missing).runStages ctx value stages log).2 = log := by
  induction stages generalizing ctx value with
  | nil => rfl
  | cons stage later ih =>
    obtain ⟨here, behind⟩ := List.forall_mem_cons.1 all
    obtain ⟨flow, ctx', ran, installed'⟩ := runStage_cashier missing here installed value log
    simp only [runStages, bind, StateT.bind, ran]
    cases flow with
    | proceed next => exact ih behind installed' next
    | stop last => rfl
    | raise error => rfl

theorem run_cashier (template : String) (p : Placeholder) (value : Value) (log : List Nat) :
    ((cashier missing).run template p value log).2 = log := by
  obtain ⟨stages, resolved, all⟩ := resolveAll_cashier missing p.chain log
  have ordered : ∀ stage ∈ Stage.ordered stages, IsOperation stage :=
    fun stage mem => all stage ((Stage.ordered_perm stages).mem_iff.1 mem)
  have fresh : (startContext template p value : Context (List Nat)).onError = none ∧
      (startContext template p value : Context (List Nat)).onEmpty = none := ⟨rfl, rfl⟩
  have ran := runStages_cashier missing ordered fresh value log
  simp only [run, bind, StateT.bind, resolved]
  split
  rename_i result log' ended
  rw [ended] at ran
  cases result <;> exact ran

end

/-- The values note when they are taken, and nothing else is noted. -/
theorem observes_noted {missing : Missing (List Nat)}
    (silent : ∀ key log, (missing.value? key log).2 = log) (template : String)
    (texts : List String) : Observes (cashier missing) template (noted texts) id where
  run p _ value log := run_cashier missing template p.toPlaceholder value log
  missing := silent
  resolve k entry supplied log := by
    rw [noted, List.getElem?_mapIdx] at supplied
    obtain ⟨text, -, rfl⟩ := Option.map_eq_some_iff.1 supplied
    rfl

/-- A filter between literals and an escaped brace, then a missing value, which is answered or
ignored; and a fault, behind which no value is taken, with a value too many. -/
theorem replace_list_cashier :
    let priced := "<\x7b$ a | pad_start(3, '0') EUR\x7d> \\{b} {c|repeat(2)}"
    let failing := "{a|repeat(2)}{b|repeat}{c}"
    ((∀ text ∈ ((cashier position).fragments priced (noted ["7"]) []).1.texts,
        ¬ EndsInBackslash text) ∧
      Observes (cashier position) priced (noted ["7"]) id ∧
      ((cashier position).replace priced (.list (noted ["7"])) []).1 =
        some (.ok "<$007EUR> \\{b} 11") ∧
      ((cashier position).replace priced (.list (noted ["7"])) []).2 = [0]) ∧
    ((∀ text ∈ ((cashier .ignore).fragments priced (noted ["7"]) []).1.texts,
        ¬ EndsInBackslash text) ∧
      Observes (cashier .ignore) priced (noted ["7"]) id ∧
      ((cashier .ignore).replace priced (.list (noted ["7"])) []).1 =
        some (.ok "<$007EUR> \\{b} {c|repeat(2)}") ∧
      ((cashier .ignore).replace priced (.list (noted ["7"])) []).2 = [0]) ∧
    (∀ text ∈ ((cashier .ignore).fragments failing (noted ["x", "y", "z", "u"]) []).1.texts,
        ¬ EndsInBackslash text) ∧
      Observes (cashier .ignore) failing (noted ["x", "y", "z", "u"]) id ∧
      ((cashier .ignore).replace failing (.list (noted ["x", "y", "z", "u"])) []).1 =
        some (.error (.filter "repeat" (.countMissing .repetitions))) ∧
      ((cashier .ignore).replace failing (.list (noted ["x", "y", "z", "u"])) []).2 = [0, 1] := by
  intro priced failing
  have answers : ∀ key log, (position.value? key log).2 = log := fun key _ => by cases key <;> rfl
  have ignores : ∀ key log, ((.ignore : Missing (List Nat)).value? key log).2 = log :=
    fun _ _ => rfl
  refine ⟨?_, ?_, ?_⟩
  · have plain : ∀ text ∈ ((cashier position).fragments priced (noted ["7"]) []).1.texts,
        ¬ EndsInBackslash text := by decide +kernel
    obtain ⟨filled, -, taken⟩ := replace_list_eq [] plain
    have observes := observes_noted answers priced ["7"]
    refine ⟨plain, observes, ?_, (taken id observes).trans (by decide +kernel)⟩
    rw [filled]
    decide +kernel
  · have plain : ∀ text ∈ ((cashier .ignore).fragments priced (noted ["7"]) []).1.texts,
        ¬ EndsInBackslash text := by decide +kernel
    obtain ⟨filled, -, taken⟩ := replace_list_eq [] plain
    have observes := observes_noted ignores priced ["7"]
    refine ⟨plain, observes, ?_, (taken id observes).trans (by decide +kernel)⟩
    rw [filled]
    decide +kernel
  · have plain : ∀ text ∈
        ((cashier .ignore).fragments failing (noted ["x", "y", "z", "u"]) []).1.texts,
        ¬ EndsInBackslash text := by decide +kernel
    obtain ⟨filled, -, taken⟩ := replace_list_eq [] plain
    have observes := observes_noted ignores failing ["x", "y", "z", "u"]
    refine ⟨plain, observes, ?_, (taken id observes).trans (by decide +kernel)⟩
    rw [filled]
    decide +kernel

end Engine

end Stencil
