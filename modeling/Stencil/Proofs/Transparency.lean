/-
# Control filters with nothing to control

A control filter hands its value on and installs a handler, and a handler is asked about faults and
empty values alone.  So in a chain that has neither, control filters change nothing, wherever they
stand and whatever their arguments are.

* `Woven`: a list with additional entries.  Chains with additional calls have stages with additional
  stages, and ordering them by priority keeps it so (`woven_resolveAll`, `Woven.ordered`).
* `Definition.Blind`: a transform that does not read the handlers in its context.  All that such a
  filter can tell of a context is its occasion.
* `trace_woven`: two runs side by side.  Their contexts may differ in what is installed, but not in
  the occasion, and the one with more stages stops for a moment at each of these.
* `run_woven`: the run of a placeholder, which stays as it was and asks no handler.
-/
import Stencil.Proofs.Failure
import Stencil.Proofs.Order

namespace Stencil

variable {σ α : Type}

/-! ## 1. Additional entries -/

/-- A list with additional entries of a kind, at any places. -/
inductive Woven (extra : α → Prop) : List α → List α → Prop
  | nil : Woven extra [] []
  | keep (a : α) {xs ys : List α} (later : Woven extra xs ys) : Woven extra (a :: xs) (a :: ys)
  | add {a : α} {xs ys : List α} (new : extra a) (later : Woven extra xs ys) :
      Woven extra xs (a :: ys)

section
variable {extra : α → Prop} {xs ys xs' ys' : List α}

theorem Woven.append (woven : Woven extra xs ys) (behind : Woven extra xs' ys') :
    Woven extra (xs ++ xs') (ys ++ ys') := by
  induction woven with
  | nil => exact behind
  | keep a later ih => exact .keep a ih
  | add new later ih => exact .add new ih

theorem Woven.filter (keep : α → Bool) (woven : Woven extra xs ys) :
    Woven extra (xs.filter keep) (ys.filter keep) := by
  induction woven with
  | nil => exact .nil
  | keep a later ih =>
    cases kept : keep a with
    | true => simpa [kept] using ih.keep a
    | false => simpa [kept] using ih
  | add new later ih =>
    rename_i a xs ys
    cases kept : keep a with
    | true => simpa [kept] using Woven.add new ih
    | false => simpa [kept] using ih

end

/-- Stages with additional ones, put in order. -/
theorem Woven.ordered {extra : Stage σ → Prop} {stages stages' : List (Stage σ)}
    (woven : Woven extra stages stages') :
    Woven extra (Stage.ordered stages) (Stage.ordered stages') := by
  have ofPriority : ∀ priority, Woven extra (Stage.ofPriority priority stages)
      (Stage.ofPriority priority stages') := fun _ => woven.filter _
  rw [Stage.ordered_eq, Stage.ordered_eq]
  simp only [Priority.inOrder, List.flatMap_cons, List.flatMap_nil, List.append_nil]
  exact (ofPriority .before).append ((ofPriority .normal).append (ofPriority .after))

/-- The calls of the two control filters. -/
def Call.IsControl (call : Call) : Prop := call.name = "error" ∨ call.name = "empty"

/-- The stages of the two control filters. -/
def Stage.IsControl (stage : Stage σ) : Prop :=
  stage.definition = Control.error ∨ stage.definition = Control.empty

namespace Engine

variable {e : Engine σ}

/-- Every engine starts with the control filters. -/
theorem filter?_withOptions (options : Options σ) :
    (withOptions options).filter? "error" = some Control.error ∧
      (withOptions options).filter? "empty" = some Control.empty := by
  simp only [filter?, withOptions, preregistered_eq]
  exact ⟨rfl, rfl⟩

/-- Registered control filters are found without asking the source. -/
theorem resolve_control (error : e.filter? "error" = some Control.error)
    (empty : e.filter? "empty" = some Control.empty) {call : Call} (control : call.IsControl)
    (s : σ) : ∃ d, e.resolve call.name s = (some d, s) ∧ Stage.IsControl ⟨d, call.args⟩ := by
  rcases control with name | name
  · exact ⟨Control.error, by simp [resolve, name, error, pure, StateT.pure], .inl rfl⟩
  · exact ⟨Control.empty, by simp [resolve, name, empty, pure, StateT.pure], .inr rfl⟩

theorem woven_resolveAll (error : e.filter? "error" = some Control.error)
    (empty : e.filter? "empty" = some Control.empty) {chain chain' : List Call}
    (woven : Woven Call.IsControl chain chain') (s : σ) :
    Woven Stage.IsControl (e.resolveAll chain s).1 (e.resolveAll chain' s).1 ∧
      (e.resolveAll chain' s).2 = (e.resolveAll chain s).2 := by
  induction woven generalizing s with
  | nil => exact ⟨.nil, rfl⟩
  | keep call later ih =>
    obtain ⟨d?, s', resolved⟩ : ∃ d? s', e.resolve call.name s = (d?, s') := ⟨_, _, rfl⟩
    obtain ⟨stages, state⟩ := ih s'
    simp only [resolveAll, bind, StateT.bind, resolved]
    cases d? with
    | none => exact ⟨stages, state⟩
    | some d => exact ⟨stages.keep _, state⟩
  | add control later ih =>
    obtain ⟨d, resolved, isControl⟩ := resolve_control error empty control s
    obtain ⟨stages, state⟩ := ih s
    simp only [resolveAll, bind, StateT.bind, resolved]
    exact ⟨.add isControl stages, state⟩

end Engine

/-! ## 2. What a stage can tell of its context -/

/-- Contexts with the same occasion, but for the slots and the section of the filter that ran
last. -/
def Context.SameOccasion (ctx ctx' : Context σ) : Prop :=
  ∀ slots section?, { ctx.toOccasion with args := slots, config := section? } =
    { ctx'.toOccasion with args := slots, config := section? }

theorem Context.SameOccasion.of_eq {ctx ctx' : Context σ}
    (same : ctx.toOccasion = ctx'.toOccasion) : ctx.SameOccasion ctx' :=
  fun slots section? => by rw [same]

/-- The transform of a filter does not read the handlers that are installed: in contexts with the
same occasion it makes the same of a value and of the state, and the occasion that it hands on is
the same. -/
def Definition.Blind (d : Definition σ) : Prop :=
  ∀ value args (ctx ctx' : Context σ) s, ctx.toOccasion = ctx'.toOccasion →
    (d.transform value args ctx s).1.1 = (d.transform value args ctx' s).1.1 ∧
    (d.transform value args ctx s).1.2.toOccasion =
      (d.transform value args ctx' s).1.2.toOccasion ∧
    (d.transform value args ctx s).2 = (d.transform value args ctx' s).2

/-- A transform that reads nothing of the context does not read the handlers. -/
theorem Definition.Blind.of_pure {d : Definition σ} {f : Value → Arguments → Except Fault Value}
    (pure' : d.transform = .pure f) : d.Blind := by
  intro value args ctx ctx' s same
  rw [pure']
  exact ⟨rfl, same, rfl⟩

/-- The built-in operations do not read the handlers. -/
theorem blind_operation (name : String) :
    ∀ d ∈ (Operation.definition? name : Option (Definition σ)), d.Blind := by
  intro d found
  unfold Operation.definition? at found
  split at found
  · cases found
    exact .of_pure rfl
  · cases found

/-- Control filters install handlers, but they do not read any. -/
theorem blind_control {d : Definition σ} (control : d = Control.error ∨ d = Control.empty) :
    d.Blind := by
  rcases control with rfl | rfl <;> exact fun value args ctx ctx' s same => ⟨rfl, same, rfl⟩

/-- Nothing has gone wrong in a stage: there is no fault, and no value that counts as empty. -/
def Executed.Fine (e : Engine σ) (x : Executed σ) : Prop := ∃ output, x.event e = .fine output

namespace Executed

variable {e : Engine σ} {x : Executed σ}

/-- Where nothing has gone wrong, no handler is asked. -/
theorem Fine.silent (fine : x.Fine e) : x.Silent e := by
  obtain ⟨output, event⟩ := fine
  simp [Silent, question?, event]

/-- A chain goes on with a value behind which nothing has gone wrong, and in the state that the
transform has left. -/
theorem Settled.of_fine (h : x.Settled e) {output : Value} (event : x.event e = .fine output) :
    x.flow = .proceed output ∧ x.left = x.asked := by
  obtain ⟨flow, left⟩ := h.of_silent (Fine.silent ⟨output, event⟩)
  rw [event] at flow
  exact ⟨flow, left⟩

end Executed

namespace Engine

variable {e : Engine σ} {ctx ctx' : Context σ} {stage : Stage σ} {value : Value} {s : σ}

/-- A control filter hands its value on, leaves the state alone and keeps the occasion. -/
theorem observe_control (control : stage.IsControl) (ctx : Context σ) (value : Value) (s : σ) :
    let x := e.observe stage ctx value s
    x.event e = .fine value ∧ x.flow = .proceed value ∧ x.left = s ∧
      x.after.toOccasion = { ctx.toOccasion with args := stage.slots, config := none } := by
  obtain ⟨d, slots⟩ := stage
  rcases control with rfl | rfl <;> exact ⟨rfl, rfl, rfl, rfl⟩

/-- A filter that does not read the handlers does the same where others are installed. -/
theorem observe_blind (blind : stage.definition.Blind) (same : ctx.SameOccasion ctx')
    (value : Value) (s : σ) :
    (e.observe stage ctx' value s).event e = (e.observe stage ctx value s).event e ∧
      (e.observe stage ctx' value s).asked = (e.observe stage ctx value s).asked ∧
      (e.observe stage ctx value s).after.SameOccasion (e.observe stage ctx' value s).after := by
  obtain ⟨result, occasion, state⟩ := blind value (e.observe stage ctx value s).args
    (e.observe stage ctx value s).before (e.observe stage ctx' value s).before
    (stage.definition.defaults.evaluate s).2 (same _ _)
  have results : (e.observe stage ctx value s).result = (e.observe stage ctx' value s).result :=
    result
  refine ⟨?_, state.symm, .of_eq occasion⟩
  simp only [Executed.event, results]
  rfl

/-! ## 3. Two runs side by side -/

/-- **Additional control filters change nothing where nothing goes wrong.**  The two runs have the
same value and state before every stage that is in both, and contexts with the same occasion. -/
theorem trace_woven {stages stages' : List (Stage σ)} (woven : Woven Stage.IsControl stages stages')
    (blind : ∀ stage ∈ stages, stage.definition.Blind) (same : ctx.SameOccasion ctx')
    (fine : ∀ x ∈ e.trace ctx value stages s, x.Fine e) :
    (∀ x ∈ e.trace ctx' value stages' s, x.Fine e) ∧
      Executed.outcome value s (e.trace ctx' value stages' s) =
        Executed.outcome value s (e.trace ctx value stages s) := by
  induction woven generalizing ctx ctx' value s with
  | nil => exact ⟨fine, rfl⟩
  | @keep stage stages stages' later ih =>
    obtain ⟨here, behind⟩ := List.forall_mem_cons.1 blind
    obtain ⟨event, state, after⟩ := observe_blind (e := e) here same value s
    obtain ⟨output, first⟩ : (e.observe stage ctx value s).Fine e :=
      fine _ (by rw [trace]; exact List.mem_cons_self)
    obtain ⟨flow, left⟩ := Executed.Settled.of_fine (e.observe_handled stage ctx value s) first
    obtain ⟨flow', left'⟩ :=
      Executed.Settled.of_fine (e.observe_handled stage ctx' value s) (event.trans first)
    have states : (e.observe stage ctx' value s).left = (e.observe stage ctx value s).left :=
      left'.trans (state.trans left.symm)
    rw [trace_proceed flow] at fine ⊢
    rw [trace_proceed flow', states]
    obtain ⟨fine', outcome⟩ := ih behind after (List.forall_mem_cons.1 fine).2
    refine ⟨List.forall_mem_cons.2 ⟨⟨output, event.trans first⟩, fine'⟩, ?_⟩
    rw [Executed.outcome_cons value s _ flow, Executed.outcome_cons value s _ flow', states,
      outcome]
  | @add stage stages stages' control later ih =>
    obtain ⟨event, flow, left, occasion⟩ := observe_control (e := e) control ctx' value s
    have after : ctx.SameOccasion (e.observe stage ctx' value s).after := by
      intro slots section?
      rw [occasion]
      exact same slots section?
    obtain ⟨fine', outcome⟩ := ih blind after fine
    rw [trace_proceed flow, left]
    refine ⟨List.forall_mem_cons.2 ⟨⟨value, event⟩, fine'⟩, ?_⟩
    rw [Executed.outcome_cons value s _ flow, left, outcome]

/-! ## 4. The run of a placeholder -/

/-- **Control filters are transparent where nothing goes wrong.**  If no stage of a placeholder
fails and none gives an empty value, the control filters left aside, and if no filter reads the
handlers that are installed, then any calls of the control filters, with any arguments and at any
places of the chain, leave text and state as they are, and still no handler is asked. -/
theorem run_woven (error : e.filter? "error" = some Control.error)
    (empty : e.filter? "empty" = some Control.empty) {template : String} {p : Placeholder}
    (blind : ∀ stage ∈ (e.resolveAll p.chain s).1, stage.definition.Blind)
    (fine : ∀ x ∈ e.executed template p value s, x.Fine e) {chain : List Call}
    (woven : Woven Call.IsControl p.chain chain) :
    e.run template { p with chain } value s = e.run template p value s ∧
      ∀ x ∈ e.executed template { p with chain } value s, x.Fine e ∧ x.Silent e := by
  obtain ⟨stages, state⟩ := woven_resolveAll error empty woven s
  have blind' : ∀ stage ∈ Stage.ordered (e.resolveAll p.chain s).1, stage.definition.Blind :=
    fun stage mem => blind stage ((Stage.ordered_perm _).mem_iff.1 mem)
  obtain ⟨fine', outcome⟩ := trace_woven stages.ordered blind' (.of_eq rfl) fine
  have ran : e.executed template { p with chain } value s =
      e.trace (startContext template p value) value (Stage.ordered (e.resolveAll chain s).1)
        (e.resolveAll p.chain s).2 := by
    rw [← state]
    rfl
  refine ⟨?_, fun x mem => ?_⟩
  · rw [run_eq_outcome, run_eq_outcome, ran, state]
    simp only [outcome]
    rfl
  · rw [ran] at mem
    exact ⟨fine' x mem, (fine' x mem).silent⟩

/-- An engine with its own filters alone has none that reads the handlers. -/
theorem blind_withOptions {options : Options σ} (alone : options.source = none)
    (chain : List Call) (s : σ) :
    ∀ stage ∈ ((withOptions options).resolveAll chain s).1, stage.definition.Blind := by
  have resolved : ∀ name s, ∃ d?, (withOptions options).resolve name s = (d?, s) ∧
      ∀ d ∈ d?, d.Blind := by
    intro name s
    cases registered : (withOptions options).filter? name with
    | some d =>
      refine ⟨some d, by simp [resolve, registered, pure, StateT.pure], ?_⟩
      rintro d ⟨⟩
      have mem : (name, d) ∈ preregistered := Keyed.mem_of_find? registered
      rw [preregistered_eq] at mem
      simp only [List.mem_cons, List.not_mem_nil, or_false, Prod.mk.injEq] at mem
      rcases mem with ⟨-, rfl⟩ | ⟨-, rfl⟩
      · exact blind_control (.inr rfl)
      · exact blind_control (.inl rfl)
    | none =>
      have noSource : (withOptions options).options.source = none := alone
      exact ⟨_, by simp [resolve, registered, noSource, pure, StateT.pure], blind_operation name⟩
  induction chain generalizing s with
  | nil => exact fun stage no => absurd no List.not_mem_nil
  | cons call rest ih =>
    obtain ⟨d?, found, blind⟩ := resolved call.name s
    simp only [resolveAll, bind, StateT.bind, found]
    cases d? with
    | none => exact ih s
    | some d => exact List.forall_mem_cons.2 ⟨blind d rfl, ih s⟩

/-- An engine with handlers that throw, and that note it when they are asked. -/
def vigilant : Engine (List String) :=
  withOptions {
    onError := some fun _ _ _ _ log => (.ok (.throw none), log ++ ["failed"])
    onEmpty := some fun _ _ _ log => (.ok (.throw none), log ++ ["vanished"]) }

/-- A placeholder that turns the empty text into one that is not empty. -/
def padded : Placeholder where
  name := ""
  leading := "<"
  trailing := ">"
  matched := "{}"
  chain := [⟨"pad_start", [some (.ofInt 2), some (.string "x")]⟩]

/-- Control filters in front of the one filter, with the empty text as their value, and behind
it. -/
theorem run_woven_padded :
    let throwing : Call := ⟨"empty", [some (.string "throw")]⟩
    let aborting : Call := ⟨"error", [some (.string "abort"), some (.string "N/A")]⟩
    let chain := throwing :: padded.chain ++ [aborting, throwing]
    vigilant.filter? "error" = some Control.error ∧
      vigilant.filter? "empty" = some Control.empty ∧
      (∀ stage ∈ (vigilant.resolveAll padded.chain []).1, stage.definition.Blind) ∧
      (∀ x ∈ vigilant.executed "{}" padded (.string "") [], x.Fine vigilant) ∧
      Woven Call.IsControl padded.chain chain ∧
      (vigilant.run "{}" { padded with chain } (.string "") []).1.toOption = some "<xx>" ∧
      (vigilant.run "{}" { padded with chain } (.string "") []).2 = [] ∧
      (vigilant.executed "{}" { padded with chain } (.string "") []).map Executed.name =
        ["empty", "error", "empty", "pad_start"] ∧
      ∀ x ∈ vigilant.executed "{}" { padded with chain } (.string "") [], x.Silent vigilant := by
  intro throwing aborting chain
  obtain ⟨error, empty⟩ : vigilant.filter? "error" = some Control.error ∧
      vigilant.filter? "empty" = some Control.empty := filter?_withOptions vigilant.options
  have blind : ∀ stage ∈ (vigilant.resolveAll padded.chain []).1, stage.definition.Blind :=
    blind_withOptions rfl padded.chain []
  have fine : ∀ x ∈ vigilant.executed "{}" padded (.string "") [], x.Fine vigilant := by
    have events : (vigilant.executed "{}" padded (.string "") []).all (fun x =>
        match x.event vigilant with
        | .fine _ => true
        | _ => false) = true := by
      decide +kernel
    intro x mem
    have event := List.all_eq_true.1 events x mem
    split at event
    · exact ⟨_, ‹_›⟩
    · cases event
  have woven : Woven Call.IsControl padded.chain chain :=
    .add (.inr rfl) (.keep _ (.add (.inl rfl) (.add (.inr rfl) .nil)))
  obtain ⟨same, silent⟩ := run_woven error empty blind fine woven
  have alone : (vigilant.run "{}" padded (.string "") []).1.toOption = some "<xx>" ∧
      (vigilant.run "{}" padded (.string "") []).2 = [] := by
    decide +kernel
  rw [← same] at alone
  exact ⟨error, empty, blind, fine, woven, alone.1, alone.2, by decide +kernel,
    fun x mem => (silent x mem).2⟩

end Engine

end Stencil
