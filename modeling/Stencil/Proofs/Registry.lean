/-
# The registry of an engine

Filters are registered, taken away and changed in place, and an engine may be cloned at any time.
Whatever came before, a registry holds under each name what was written there last:

* `lastWritten?`: what a history leaves under a name, told from its end;
* `engines_eq`: each of several engines is the new engine behind its own history, so that nothing
  done to one of them shows in another;
* `engines_reflect_histories`: what can be seen of an engine behind its history.

A name is looked up in a list with ordered keys, and each operation on such a list has one law for
look-ups.  So the registry is followed through `Engine.filter?` alone (`filter?_edit`), and the
invariant of its steps (`Engine.Sound`) speaks of nothing else but the order of the keys.
-/
import Mathlib.Data.List.Induction
import Stencil.Engine.Basic

namespace Stencil

variable {σ : Type}

/-! ## 1. Histories -/

/-- A change of a definition that leaves its name as it is. -/
structure Definition.Change (σ : Type) where
  apply : Definition σ → Definition σ
  keepsName : ∀ d, (apply d).name = d.name

/-- A step on the registry of an engine. -/
inductive Edit (σ : Type)
  | add (d : Definition σ)
  | remove (name : String)
  | adjust (name : String) (change : Definition.Change σ)

/-- The name that an edit is about. -/
def Edit.name : Edit σ → String
  | add d => d.name
  | remove name => name
  | adjust name _ => name

/-- The engine behind an edit.  A filter that is refused leaves it as it is. -/
def Engine.edit (e : Engine σ) : Edit σ → Engine σ
  | .add d =>
    match e.add d with
    | .ok e => e
    | .error _ => e
  | .remove name => e.remove name
  | .adjust name change => e.adjust name change.apply

/-- The new engine behind a history of edits. -/
def Engine.after (options : Options σ) (history : List (Edit σ)) : Engine σ :=
  history.foldl Engine.edit (withOptions options)

/-- A step with several engines: one of them is edited, or one is cloned. -/
inductive Move (σ : Type)
  | edit (index : Nat) (edit : Edit σ)
  | clone (index : Nat)

/-- What a step makes of something that is kept for each of several engines.  A clone comes last. -/
def Move.apply {α : Type} (edit : α → Edit σ → α) (all : List α) : Move σ → List α
  | .edit index ed => all.modify index (edit · ed)
  | .clone index => all ++ all[index]?.toList

/-- The engines behind some steps, of which the first is new. -/
def engines (options : Options σ) (moves : List (Move σ)) : List (Engine σ) :=
  moves.foldl (Move.apply Engine.edit) [Engine.withOptions options]

/-- The history of each engine: a clone takes over that of its original, and an edit counts for the
engine that it is made on. -/
def histories (moves : List (Move σ)) : List (List (Edit σ)) :=
  moves.foldl (Move.apply fun history ed => history ++ [ed]) [[]]

/-! ## 2. What was written last -/

namespace Edit

/-- The definition that an edit registers under a name. -/
def writes? (name : String) : Edit σ → Option (Definition σ)
  | add d => if d.name = name ∧ d.flaw? = none then some d else none
  | remove _ => none
  | adjust _ _ => none

/-- An edit takes the filter of a name away. -/
def removes (name : String) : Edit σ → Bool
  | add _ => false
  | remove other => other == name
  | adjust _ _ => false

/-- What an edit makes of the definition that is registered under a name. -/
def changes (name : String) (d : Definition σ) : Edit σ → Definition σ
  | add _ => d
  | remove _ => d
  | adjust other change => if other = name then change.apply d else d

/-- What stands under a name behind an edit, given what stood there before. -/
def effect (name : String) (current : Option (Definition σ)) (ed : Edit σ) :
    Option (Definition σ) :=
  match ed.writes? name with
  | some d => some d
  | none => if ed.removes name then none else current.map (ed.changes name)

theorem changes_name (name : String) (d : Definition σ) (ed : Edit σ) :
    (ed.changes name d).name = d.name := by
  cases ed with
  | add _ => rfl
  | remove _ => rfl
  | adjust other change =>
    simp only [changes]
    split
    · exact change.keepsName d
    · rfl

/-- A filter that is refused has no effect. -/
theorem effect_refused (name : String) (current : Option (Definition σ)) {d : Definition σ}
    (refused : d.flaw? ≠ none) : effect name current (.add d) = current := by
  simp only [effect, writes?, refused, and_false, if_false, removes, Bool.false_eq_true]
  exact Option.map_id'

/-- An edit of another name has no effect on this one. -/
theorem effect_other {name : String} (current : Option (Definition σ)) {ed : Edit σ}
    (other : ed.name ≠ name) : ed.effect name current = current := by
  cases ed with
  | add d =>
    have : d.name ≠ name := other
    simp only [effect, writes?, this, false_and, if_false, removes, Bool.false_eq_true]
    exact Option.map_id'
  | remove removed =>
    have : removed ≠ name := other
    simp only [effect, writes?, removes, beq_iff_eq, this, if_false]
    exact Option.map_id'
  | adjust adjusted change =>
    have : adjusted ≠ name := other
    simp only [effect, writes?, removes, Bool.false_eq_true, if_false, changes, this]
    exact Option.map_id'

end Edit

/-- The definition that a history registers last under a name. -/
def lastWrite? (name : String) (history : List (Edit σ)) : Option (Definition σ) :=
  history.reverse.findSome? (Edit.writes? name)

/-- The edits behind that; the whole history, if it registers nothing under the name. -/
def sinceWrite (name : String) (history : List (Edit σ)) : List (Edit σ) :=
  (history.reverse.takeWhile fun ed => (ed.writes? name).isNone).reverse

/-- The control filter of a name: every engine starts with `error` and `empty`, and no others. -/
def Control.named? (name : String) : Option (Definition σ) :=
  if name = "error" then some Control.error
  else if name = "empty" then some Control.empty
  else none

/-- What a history leaves under a name: the definition that was registered last, or the control
filter of that name, with the changes made since then; nothing, if it was removed since then. -/
def lastWritten? (name : String) (history : List (Edit σ)) : Option (Definition σ) :=
  let since := sinceWrite name history
  if since.any (Edit.removes name) then none
  else ((lastWrite? name history).or (Control.named? name)).map fun d =>
    since.foldl (Edit.changes name) d

/-- **What was written last changes with each edit as what stands under the name does.** -/
theorem lastWritten?_append (name : String) (history : List (Edit σ)) (ed : Edit σ) :
    lastWritten? name (history ++ [ed]) = ed.effect name (lastWritten? name history) := by
  unfold Edit.effect
  cases writes : ed.writes? name with
  | some d => simp [lastWritten?, lastWrite?, sinceWrite, writes]
  | none =>
    have since : sinceWrite name (history ++ [ed]) = sinceWrite name history ++ [ed] := by
      simp [sinceWrite, writes]
    have last : lastWrite? name (history ++ [ed]) = lastWrite? name history := by
      simp [lastWrite?, writes]
    unfold lastWritten?
    simp only [since, last, List.any_append, List.any_cons, List.any_nil, Bool.or_false,
      List.foldl_append, List.foldl_cons, List.foldl_nil]
    cases ed.removes name with
    | true => simp
    | false =>
      simp only [Bool.or_false, Bool.false_eq_true, if_false]
      split
      · rfl
      · rw [Option.map_map]
        rfl

/-! ## 3. One step -/

namespace Engine

theorem flaw?_eq_none {d : Definition σ} : d.flaw? = none ↔ Text.trim d.name.toList ≠ [] := by
  simp [Definition.flaw?]

/-- A filter is refused just for a blank name. -/
theorem add_eq_error (e : Engine σ) (d : Definition σ) (err : Error) :
    e.add d = .error err ↔
      Text.trim d.name.toList = [] ∧ err = .invalidFilter .blankName := by
  unfold add Definition.flaw?
  by_cases blank : Text.trim d.name.toList = []
  · simp [blank, eq_comm]
  · simp [blank]

theorem edit_add_refused (e : Engine σ) {d : Definition σ}
    (blank : Text.trim d.name.toList = []) : e.edit (.add d) = e := by
  have refused := (add_eq_error e d _).2 ⟨blank, rfl⟩
  simp [edit, refused]

theorem edit_add_accepted (e : Engine σ) {d : Definition σ} (solid : d.flaw? = none) :
    e.edit (.add d) = { e with filters := e.filters.insert d.name d } := by
  simp [edit, add, solid]

theorem options_edit (e : Engine σ) (ed : Edit σ) : (e.edit ed).options = e.options := by
  cases ed with
  | add d =>
    by_cases solid : d.flaw? = none
    · rw [edit_add_accepted e solid]
    · rw [edit_add_refused e (by simpa [flaw?_eq_none] using solid)]
  | remove name => rfl
  | adjust name change => rfl

/-- The keys of a registry are in order, and each is the name of its filter and not blank. -/
structure Sound (e : Engine σ) : Prop where
  ordered : e.filters.Ordered
  named : ∀ name d, e.filter? name = some d → d.name = name ∧ Text.trim name.toList ≠ []

/-- An edit of another name does not show. -/
theorem filter?_edit_other {e : Engine σ} (ordered : e.filters.Ordered) {ed : Edit σ}
    {name : String} (other : ed.name ≠ name) : (e.edit ed).filter? name = e.filter? name := by
  cases ed with
  | add d =>
    have key : d.name ≠ name := other
    by_cases solid : d.flaw? = none
    · rw [edit_add_accepted e solid]
      simp [filter?, Keyed.find?_insert, key]
    · rw [edit_add_refused e (by simpa [flaw?_eq_none] using solid)]
  | remove removed =>
    have key : removed ≠ name := other
    simp [edit, Engine.remove, filter?, Keyed.find?_erase ordered, key]
  | adjust adjusted change =>
    have key : adjusted ≠ name := other
    simp [edit, Engine.adjust, filter?, Keyed.find?_adjust, key]

/-- **One step of a look-up.** -/
theorem filter?_edit {e : Engine σ} (ordered : e.filters.Ordered) (ed : Edit σ) (name : String) :
    (e.edit ed).filter? name = ed.effect name (e.filter? name) := by
  by_cases here : ed.name = name
  · subst here
    cases ed with
    | add d =>
      by_cases solid : d.flaw? = none
      · rw [edit_add_accepted e solid]
        simp [filter?, Keyed.find?_insert, Edit.effect, Edit.writes?, Edit.name, solid]
      · rw [edit_add_refused e (by simpa [flaw?_eq_none] using solid),
          Edit.effect_refused _ _ solid]
    | remove removed =>
      simp [edit, Engine.remove, filter?, Keyed.find?_erase ordered, Edit.effect, Edit.writes?,
        Edit.removes, Edit.name]
    | adjust adjusted change =>
      simp [edit, Engine.adjust, filter?, Keyed.find?_adjust, Edit.effect, Edit.writes?,
        Edit.removes, Edit.changes, Edit.name]
  · rw [Edit.effect_other _ here, filter?_edit_other ordered here]

/-- Every step keeps a registry sound. -/
theorem Sound.edit {e : Engine σ} (sound : e.Sound) (ed : Edit σ) : (e.edit ed).Sound where
  ordered := by
    cases ed with
    | add d =>
      by_cases solid : d.flaw? = none
      · rw [edit_add_accepted e solid]
        exact Keyed.ordered_insert sound.ordered
      · rw [edit_add_refused e (by simpa [flaw?_eq_none] using solid)]
        exact sound.ordered
    | remove name => exact Keyed.ordered_erase sound.ordered
    | adjust name change => exact Keyed.ordered_adjust sound.ordered
  named := by
    intro name d found
    rw [filter?_edit sound.ordered, Edit.effect] at found
    split at found
    · rename_i written writes
      cases found
      cases ed with
      | add d' =>
        obtain ⟨⟨rfl, solid⟩, same⟩ := by simpa [Edit.writes?] using writes
        cases same
        exact ⟨rfl, flaw?_eq_none.1 solid⟩
      | remove _ => cases writes
      | adjust _ _ => cases writes
    · split at found
      · cases found
      · obtain ⟨before, was, rfl⟩ := Option.map_eq_some_iff.1 found
        rw [Edit.changes_name]
        exact sound.named name before was

/-- A new engine holds the control filters and nothing else. -/
theorem find?_preregistered (name : String) :
    (preregistered : Keyed (Definition σ)).find? name = Control.named? name := by
  rw [preregistered_eq, Control.named?]
  simp only [Keyed.find?, eq_comm (b := name)]
  split_ifs with empty error
  · exact absurd (empty.symm.trans error) (by decide)
  · rfl
  · rfl
  · rfl

/-- A new engine is sound: the control filters stand under their names. -/
theorem sound_withOptions (options : Options σ) : (withOptions options).Sound where
  ordered := Keyed.ordered_insert (Keyed.ordered_insert Keyed.ordered_nil)
  named := by
    intro name d found
    have looked : Control.named? name = some d := (find?_preregistered name).symm.trans found
    unfold Control.named? at looked
    split_ifs at looked with error empty
    · cases looked
      exact ⟨error.symm, error ▸ by decide +kernel⟩
    · cases looked
      exact ⟨empty.symm, empty ▸ by decide +kernel⟩

/-! ## 4. Whole histories -/

theorem after_append (options : Options σ) (history : List (Edit σ)) (ed : Edit σ) :
    after options (history ++ [ed]) = (after options history).edit ed := by
  simp [after]

theorem sound_after (options : Options σ) (history : List (Edit σ)) :
    (after options history).Sound := by
  induction history using List.reverseRecOn with
  | nil => exact sound_withOptions options
  | append_singleton history ed ih =>
    rw [after_append]
    exact ih.edit ed

theorem options_after (options : Options σ) (history : List (Edit σ)) :
    (after options history).options = options := by
  induction history using List.reverseRecOn with
  | nil => rfl
  | append_singleton history ed ih => rw [after_append, options_edit, ih]

/-- **A look-up finds what was written last.** -/
theorem filter?_after (options : Options σ) (history : List (Edit σ)) (name : String) :
    (after options history).filter? name = lastWritten? name history := by
  induction history using List.reverseRecOn with
  | nil => exact (find?_preregistered name).trans Option.map_id'.symm
  | append_singleton history ed ih =>
    rw [after_append, filter?_edit (sound_after options history).ordered, ih,
      lastWritten?_append]

/-- **Edits of other names do not show.** -/
theorem filter?_after_filter (options : Options σ) (history : List (Edit σ)) (name : String) :
    (after options (history.filter (·.name == name))).filter? name =
      (after options history).filter? name := by
  induction history using List.reverseRecOn with
  | nil => rfl
  | append_singleton history ed ih =>
    rw [List.filter_append, after_append]
    by_cases here : ed.name = name
    · have kept : [ed].filter (·.name == name) = [ed] := by simp [here]
      rw [kept, after_append, filter?_edit (sound_after ..).ordered,
        filter?_edit (sound_after ..).ordered, ih]
    · have dropped : [ed].filter (·.name == name) = [] := by simp [here]
      rw [dropped, List.append_nil, filter?_edit_other (sound_after ..).ordered here, ih]

theorem mem_filterNames (e : Engine σ) (name : String) :
    name ∈ e.filterNames ↔ (e.filter? name).isSome = true := by
  rw [Option.isSome_iff_ne_none]
  exact (not_iff_comm.1 Keyed.find?_eq_none.symm).symm

/-! ## 5. Several engines -/

/-- What can be seen of an engine that was made with some options and has a history. -/
structure Reflects (e : Engine σ) (options : Options σ) (history : List (Edit σ)) : Prop where
  options_eq : e.options = options
  /-- Every key is the name of its filter, and not blank. -/
  named : ∀ name d, e.filter? name = some d → d.name = name ∧ Text.trim name.toList ≠ []
  /-- Registering fails just for a blank name. -/
  refuses : ∀ d err, e.add d = .error err ↔
    Text.trim d.name.toList = [] ∧ err = .invalidFilter .blankName
  /-- A filter that is refused changes nothing. -/
  unchanged : ∀ d, Text.trim d.name.toList = [] → e.edit (.add d) = e
  /-- Under each name stands what was written there last. -/
  found : ∀ name, e.filter? name = lastWritten? name history
  /-- Edits of other names do not show. -/
  untouched : ∀ name, e.filter? name =
    (after options (history.filter (·.name == name))).filter? name
  /-- The names are listed in order, each once. -/
  sorted : e.filterNames.Pairwise (· < ·)
  /-- Just the names are listed under which a filter stands. -/
  listed : ∀ name, name ∈ e.filterNames ↔ (e.filter? name).isSome = true

theorem reflects_after (options : Options σ) (history : List (Edit σ)) :
    (after options history).Reflects options history where
  options_eq := options_after options history
  named := (sound_after options history).named
  refuses := add_eq_error _
  unchanged := fun _ => edit_add_refused _
  found := filter?_after options history
  untouched := fun name => (filter?_after_filter options history name).symm
  sorted := (sound_after options history).ordered
  listed := mem_filterNames _

end Engine

/-- A step keeps up what is told from histories. -/
theorem Move.apply_map {α β : Type} {told : α → β} {edit : α → Edit σ → α}
    {edit' : β → Edit σ → β} (tells : ∀ a ed, told (edit a ed) = edit' (told a) ed)
    (all : List α) (m : Move σ) : m.apply edit' (all.map told) = (m.apply edit all).map told := by
  cases m with
  | edit index ed =>
    refine List.ext_getElem? fun k => ?_
    simp only [Move.apply, List.getElem?_modify, List.getElem?_map, Option.map_eq_map,
      Option.map_map]
    congr 1
    funext a
    by_cases here : index = k
    · simp [here, tells]
    · simp [here]
  | clone index =>
    simp only [Move.apply, List.map_append, List.getElem?_map, Option.toList_map]

/-- **Each engine has a history of its own.** -/
theorem engines_eq (options : Options σ) (moves : List (Move σ)) :
    engines options moves = (histories moves).map (Engine.after options) := by
  induction moves using List.reverseRecOn with
  | nil => rfl
  | append_singleton moves m ih =>
    have step := Move.apply_map (fun history ed => Engine.after_append options history ed)
      (histories moves) m
    simp only [engines, histories, List.foldl_append, List.foldl_cons, List.foldl_nil] at ih step ⊢
    rw [ih, step]

/-- **A registry is a map of last writes**, over all histories and with any clones: a new engine
holds the control filters, each engine is the new engine behind its own history, and it shows of
that history what was written last under each name. -/
theorem engines_reflect_histories (options : Options σ) (moves : List (Move σ)) :
    (∀ name, (Engine.withOptions options).filter? name = Control.named? name) ∧
      engines options moves = (histories moves).map (Engine.after options) ∧
      ∀ history : List (Edit σ), (Engine.after options history).Reflects options history :=
  ⟨Engine.find?_preregistered, engines_eq options moves, Engine.reflects_after options⟩

/-- A clone keeps the filter that its original loses, and a blank name is refused. -/
example :
    let hush : Definition Unit := { name := "hush", transform := .pure fun value _ => .ok value }
    let moves := [.edit 0 (.add hush), .clone 0, .edit 0 (.remove "error"),
      .edit 1 (.add { hush with name := " " }), .edit 1 (.add { hush with name := "again" })]
    (engines {} moves).map Engine.filterNames =
      [["empty", "hush"], ["again", "empty", "error", "hush"]] := by
  decide +kernel

end Stencil
