/-
# What a chain executes

`Engine.runStages` gives the final value of a chain and keeps silent about the way there.  This file
records it: `Engine.trace` lists the stages that were executed, each with what it was given, what
its transform made of it, and how the chain went on.

* `runStages_eq_outcome`: the run is the last entry of its trace, result and state alike;
* `observe_handled`: what one stage does.  A fault or an empty value is put to at most one handler,
  and the effect of the stage is that of its transform and of one call of that handler;
* `trace_cases`: an entry is a stage run on what the entries before it have left;
* `trace_unbroken`: only the last entry can end a chain.

Facts about whole runs are facts about entries (`forall_trace`), so a property that every stage
preserves is shown for one stage and holds for all of them.
-/
import Mathlib
import Stencil.Engine.Run

namespace Stencil

variable {σ : Type}

/-! ## 1. One executed stage -/

/-- A stage that was executed. -/
structure Executed (σ : Type) where
  stage : Stage σ
  /-- The value that it was given. -/
  input : Value
  args : Arguments
  /-- The context that its transform was given. -/
  before : Context σ
  /-- The context that its transform gave back. -/
  after : Context σ
  result : Except Fault Value
  /-- The state that its transform left, in which a handler is asked. -/
  asked : σ
  /-- How the chain went on. -/
  flow : Flow
  /-- The state that the stage left. -/
  left : σ

/-- The name of the filter that was executed. -/
def Executed.name (x : Executed σ) : String := x.stage.definition.name

/-- A stage executed on a value.  How the chain goes on, and the state behind the stage, are taken
from `runStage` itself; the other parts are what the transform was given and gave. -/
def Engine.observe (e : Engine σ) (stage : Stage σ) (ctx : Context σ) (input : Value) (s : σ) :
    Executed σ :=
  let d := stage.definition
  let section? := d.configKey.bind e.options.config.section?
  let defaults := d.defaults.evaluate s
  let args := Arguments.layered defaults.1 section? d.parameters stage.slots
  let before := { ctx with args := stage.slots, config := section? }
  let transformed := d.transform input args before defaults.2
  let whole := e.runStage stage ctx input s
  { stage, input, args, before, after := transformed.1.2, result := transformed.1.1,
    asked := transformed.2, flow := whole.1.1, left := whole.2 }

/-! ## 2. What a stage means to its chain -/

/-- What a transform has come to: a value to go on with, a fault, or a value that is empty. -/
inductive Event
  | fine (output : Value)
  | fault (fault : Fault)
  | empty (output : Value)

/-- How a chain goes on behind an event, given what a handler answered, if one was asked. -/
def Event.flow (name : String) (input : Value) (answer? : Option (Except Fault Behavior)) :
    Event → Flow
  | fine output => .proceed output
  | fault f => .afterFault name f input answer?
  | empty output => .afterEmpty name input output answer?

/-- A handler asked once, if there is one. -/
def consult (question? : Option (StateM σ (Except Fault Behavior))) :
    StateM σ (Option (Except Fault Behavior)) :=
  match question? with
  | none => pure none
  | some question => some <$> question

namespace Executed

variable (e : Engine σ) (x : Executed σ)

/-- The event of an executed stage.  The values of control filters are not tested. -/
def event : Event :=
  match x.result with
  | .error f => .fault f
  | .ok output =>
    if x.stage.definition.control || !e.options.tests output then .fine output else .empty output

/-- What is put to a handler, `onError` after a fault and `onEmpty` after an empty value: the first
gets the fault and the value that the stage was given, the second the empty value. -/
def question? (onError : Option (ErrorHandler σ)) (onEmpty : Option (EmptyHandler σ)) :
    Option (StateM σ (Except Fault Behavior)) :=
  match x.event e with
  | .fine _ => none
  | .fault f => onError.map fun h => h f x.input x.args x.after.toOccasion
  | .empty output => onEmpty.map fun h => h output x.args x.after.toOccasion

/-- Of two handlers only the one for the event was asked, if it is there, and just once: how the
chain went on follows from its answer, and the state behind the stage is the one it left. -/
def Handled (onError : Option (ErrorHandler σ)) (onEmpty : Option (EmptyHandler σ)) : Prop :=
  let answered := consult (x.question? e onError onEmpty) x.asked
  x.flow = (x.event e).flow x.name x.input answered.1 ∧ x.left = answered.2

end Executed

namespace Engine

variable (e : Engine σ)

theorem handleFault_eq (ctx : Context σ) (d : Definition σ) (args : Arguments) (fault : Fault)
    (input : Value) (s : σ) :
    let answered := consult ((e.errorHandler? ctx d).map fun h =>
      h fault input args ctx.toOccasion) s
    e.handleFault ctx d args fault input s =
      (.afterFault d.name fault input answered.1, answered.2) := by
  unfold handleFault
  cases e.errorHandler? ctx d <;> rfl

theorem handleEmpty_eq (ctx : Context σ) (d : Definition σ) (args : Arguments)
    (input empty : Value) (s : σ) :
    let answered := consult ((e.emptyHandler? ctx d).map fun h => h empty args ctx.toOccasion) s
    e.handleEmpty ctx d args input empty s =
      (.afterEmpty d.name input empty answered.1, answered.2) := by
  unfold handleEmpty
  cases e.emptyHandler? ctx d <;> rfl

/-- What a stage does behind its transform. -/
def settle (d : Definition σ) (args : Arguments) (input : Value) (after : Context σ) :
    Except Fault Value → StateM σ (Flow × Context σ)
  | .error fault => do pure (← e.handleFault after d args fault input, after)
  | .ok output =>
    if d.control || !e.options.tests output then pure (.proceed output, after)
    else do pure (← e.handleEmpty after d args input output, after)

theorem runStage_eq_settle (stage : Stage σ) (ctx : Context σ) (input : Value) (s : σ) :
    let x := e.observe stage ctx input s
    e.runStage stage ctx input s =
      e.settle stage.definition x.args input x.after x.result x.asked := rfl

/-- Behind a transform there is one call of the handler in force. -/
theorem settle_eq (x : Executed σ) :
    let d := x.stage.definition
    let answered := consult (x.question? e (e.errorHandler? x.after d) (e.emptyHandler? x.after d))
      x.asked
    e.settle d x.args x.input x.after x.result x.asked =
      (((x.event e).flow x.name x.input answered.1, x.after), answered.2) := by
  obtain ⟨stage, input, args, before, after, result, asked, flow, left⟩ := x
  cases result with
  | error fault =>
    simp only [settle, bind, StateT.bind, handleFault_eq]
    rfl
  | ok output =>
    simp only [settle, Executed.question?, Executed.event]
    split
    · rfl
    · simp only [bind, StateT.bind, handleEmpty_eq]
      rfl

/-- **What one stage does.**  It asks the handler in force, at most one and once. -/
theorem observe_handled (stage : Stage σ) (ctx : Context σ) (input : Value) (s : σ) :
    (e.observe stage ctx input s).Handled e
      (e.errorHandler? (e.observe stage ctx input s).after stage.definition)
      (e.emptyHandler? (e.observe stage ctx input s).after stage.definition) := by
  have settled := (e.runStage_eq_settle stage ctx input s).trans
    (e.settle_eq (e.observe stage ctx input s))
  exact ⟨congrArg (fun r => r.1.1) settled, congrArg Prod.snd settled⟩

/-- A stage gives back the context of its transform. -/
theorem runStage_eq_observe (stage : Stage σ) (ctx : Context σ) (input : Value) (s : σ) :
    let x := e.observe stage ctx input s
    e.runStage stage ctx input s = ((x.flow, x.after), x.left) := by
  have settled := (e.runStage_eq_settle stage ctx input s).trans
    (e.settle_eq (e.observe stage ctx input s))
  exact Prod.ext (Prod.ext rfl (congrArg (fun r => r.1.2) settled)) rfl

/-! ## 3. The stages of a run -/

/-- The stages that are executed from a context on, with a value and in a state. -/
def trace (ctx : Context σ) (value : Value) : List (Stage σ) → σ → List (Executed σ)
  | [], _ => []
  | stage :: rest, s =>
    let x := e.observe stage ctx value s
    x :: match x.flow with
      | .proceed next => trace x.after next rest x.left
      | _ => []

end Engine

/-- What a chain has come to that ends here. -/
def Flow.outcome : Flow → Except Error Value
  | proceed value => .ok value
  | stop value => .ok value
  | raise error => .error error

/-- What a chain has come to behind the stages it has executed, and the state: those of the last
stage, or what the chain started with. -/
def Executed.outcome (value : Value) (s : σ) (xs : List (Executed σ)) : Except Error Value × σ :=
  match xs.getLast? with
  | none => (.ok value, s)
  | some x => (x.flow.outcome, x.left)

theorem Executed.outcome_cons (value : Value) (s : σ) (x : Executed σ) {next : Value}
    (flow : x.flow = .proceed next) (later : List (Executed σ)) :
    Executed.outcome value s (x :: later) = Executed.outcome next x.left later := by
  unfold Executed.outcome
  cases later with
  | nil => simp [flow, Flow.outcome]
  | cons y later => simp [List.getLast?_cons]

theorem Executed.outcome_concat (value : Value) (s : σ) (done : List (Executed σ))
    (x : Executed σ) : Executed.outcome value s (done ++ [x]) = (x.flow.outcome, x.left) := by
  simp [Executed.outcome]

namespace Engine

variable (e : Engine σ)

/-- **A run is the end of its trace.** -/
theorem runStages_eq_outcome (ctx : Context σ) (value : Value) (stages : List (Stage σ)) (s : σ) :
    e.runStages ctx value stages s = Executed.outcome value s (e.trace ctx value stages s) := by
  induction stages generalizing ctx value s with
  | nil => rfl
  | cons stage rest ih =>
    simp only [runStages, bind, StateT.bind, runStage_eq_observe, trace]
    cases flow : (e.observe stage ctx value s).flow with
    | proceed next =>
      rw [Executed.outcome_cons value s _ flow]
      exact ih _ next _
    | stop last => simp [Executed.outcome, flow, Flow.outcome, pure, StateT.pure]
    | raise error => simp [Executed.outcome, flow, Flow.outcome, pure, StateT.pure]

/-! ## 4. What holds of every entry -/

section
variable {e} {ctx : Context σ} {value : Value} {stages : List (Stage σ)} {s : σ}
  {x : Executed σ} {done later : List (Executed σ)}

/-- What is behind the first entry. -/
theorem trace_cons_eq {stage : Stage σ} (h : e.trace ctx value (stage :: stages) s = x :: later) :
    x = e.observe stage ctx value s ∧
      (later = [] ∨ ∃ next, x.flow = .proceed next ∧
        later = e.trace x.after next stages x.left) := by
  rw [trace] at h
  obtain ⟨rfl, rest⟩ := List.cons.inj h
  refine ⟨rfl, ?_⟩
  subst rest
  cases (e.observe stage ctx value s).flow with
  | proceed next => exact Or.inr ⟨next, rfl, rfl⟩
  | stop last => exact Or.inl rfl
  | raise error => exact Or.inl rfl

/-- What is behind a first entry with which the chain goes on. -/
theorem trace_proceed {stage : Stage σ} {next : Value}
    (flow : (e.observe stage ctx value s).flow = .proceed next) :
    e.trace ctx value (stage :: stages) s = e.observe stage ctx value s ::
      e.trace (e.observe stage ctx value s).after next stages
        (e.observe stage ctx value s).left := by
  simp only [trace, flow]

/-- What the entry behind some others starts from. -/
structure Starts (ctx : Context σ) (value : Value) (s : σ) (done : List (Executed σ))
    (ctx' : Context σ) (value' : Value) (s' : σ) : Prop where
  first : done = [] → ctx' = ctx ∧ value' = value ∧ s' = s
  next : ∀ y, done.getLast? = some y → ctx' = y.after ∧ y.flow = .proceed value' ∧ s' = y.left

/-- **An entry is a stage run on what the entries before it have left.** -/
theorem trace_cases (h : e.trace ctx value stages s = done ++ x :: later) :
    ∃ ctx' value' s', Starts ctx value s done ctx' value' s' ∧
      x = e.observe x.stage ctx' value' s' := by
  induction stages generalizing ctx value s done with
  | nil => cases done <;> cases h
  | cons stage rest ih =>
    cases done with
    | nil =>
      obtain ⟨rfl, -⟩ := trace_cons_eq h
      exact ⟨ctx, value, s, ⟨fun _ => ⟨rfl, rfl, rfl⟩, fun y last => (nomatch last)⟩, rfl⟩
    | cons y done =>
      obtain ⟨rfl, nothing | ⟨next, flow, behind⟩⟩ := trace_cons_eq h
      · cases done <;> cases nothing
      · obtain ⟨ctx', value', s', starts, observed⟩ := ih behind.symm
        refine ⟨ctx', value', s', ⟨fun no => absurd no (List.cons_ne_nil _ _), fun z last => ?_⟩,
          observed⟩
        cases done with
        | nil =>
          cases last
          obtain ⟨rfl, rfl, rfl⟩ := starts.first rfl
          exact ⟨rfl, flow, rfl⟩
        | cons w done =>
          rw [List.getLast?_cons_cons] at last
          exact starts.next z last

/-- **Only the last entry can end a chain.** -/
theorem trace_unbroken (h : e.trace ctx value stages s = done ++ x :: later) :
    ∀ y ∈ done, ∃ next, y.flow = .proceed next := by
  induction stages generalizing ctx value s done with
  | nil => cases done <;> cases h
  | cons stage rest ih =>
    cases done with
    | nil => exact fun y no => absurd no List.not_mem_nil
    | cons z done =>
      obtain ⟨-, nothing | ⟨next, flow, behind⟩⟩ := trace_cons_eq h
      · cases done <;> cases nothing
      · exact List.forall_mem_cons.2 ⟨⟨next, flow⟩, ih behind.symm⟩

/-- An entry that ends a chain is the last one. -/
theorem trace_last (h : e.trace ctx value stages s = done ++ x :: later)
    (ends : ∀ next, x.flow ≠ .proceed next) : later = [] := by
  rcases List.eq_nil_or_concat later with none | ⟨before, last, rfl⟩
  · exact none
  · obtain ⟨next, proceeds⟩ := trace_unbroken
      (h.trans (by simp : _ = (done ++ x :: before) ++ last :: [])) x List.mem_append_cons_self
    exact absurd proceeds (ends next)

/-- **What every entry preserves holds of every entry**, if it is not about the slots and the
section of the filter that is running. -/
theorem forall_trace {Inv : Context σ → Prop}
    (framed : ∀ ctx slots section?, Inv ctx → Inv { ctx with args := slots, config := section? })
    (kept : ∀ x ∈ e.trace ctx value stages s, Inv x.before → Inv x.after) (start : Inv ctx) :
    ∀ x ∈ e.trace ctx value stages s, Inv x.before ∧ Inv x.after := by
  induction stages generalizing ctx value s with
  | nil => exact fun x no => absurd no List.not_mem_nil
  | cons stage rest ih =>
    have before : Inv (e.observe stage ctx value s).before := framed ctx _ _ start
    obtain ⟨-, nothing | ⟨next, -, tail⟩⟩ := trace_cons_eq (Eq.refl (e.trace ctx value _ s))
    · rw [trace, nothing] at kept ⊢
      obtain ⟨after, -⟩ := List.forall_mem_cons.1 kept
      exact List.forall_mem_singleton.2 ⟨before, after before⟩
    · rw [trace, tail] at kept ⊢
      obtain ⟨after, behind⟩ := List.forall_mem_cons.1 kept
      exact List.forall_mem_cons.2 ⟨⟨before, after before⟩, ih behind (after before)⟩

/-- The stages that are executed are the first ones of those that are there. -/
theorem trace_stages : (e.trace ctx value stages s).map Executed.stage <+: stages := by
  induction stages generalizing ctx value s with
  | nil => exact List.prefix_refl _
  | cons stage rest ih =>
    obtain ⟨-, nothing | ⟨next, -, tail⟩⟩ := trace_cons_eq (Eq.refl (e.trace ctx value _ s))
    · rw [trace, nothing]
      exact List.prefix_append [stage] rest
    · rw [trace, tail]
      exact List.prefix_cons_inj stage |>.2 ih

theorem stage_mem_of_mem_trace (h : x ∈ e.trace ctx value stages s) : x.stage ∈ stages :=
  trace_stages.subset (List.mem_map_of_mem h)

/-- A chain that nothing ends executes all its stages. -/
theorem trace_complete
    (unbroken : ∀ x ∈ e.trace ctx value stages s, ∃ next, x.flow = .proceed next) :
    (e.trace ctx value stages s).map Executed.stage = stages := by
  induction stages generalizing ctx value s with
  | nil => rfl
  | cons stage rest ih =>
    rw [trace] at unbroken ⊢
    obtain ⟨⟨next, flow⟩, behind⟩ := List.forall_mem_cons.1 unbroken
    simp only [flow] at behind ⊢
    exact congrArg (stage :: ·) (ih behind)

end

/-! ## 5. The run of a placeholder -/

/-- The stages that a placeholder executes with a value to start with. -/
def executed (template : String) (p : Placeholder) (value : Value) (s : σ) : List (Executed σ) :=
  let resolved := e.resolveAll p.chain s
  e.trace (startContext template p value) value (Stage.ordered resolved.1) resolved.2

/-- What a placeholder becomes, and the state it leaves, are those of the stages it executes. -/
theorem run_eq_outcome (template : String) (p : Placeholder) (value : Value) (s : σ) :
    let ended := Executed.outcome value (e.resolveAll p.chain s).2 (e.executed template p value s)
    e.run template p value s = (ended.1.map (e.wrap p), ended.2) := by
  obtain ⟨stages, s', resolved⟩ : ∃ stages s', e.resolveAll p.chain s = (stages, s') :=
    ⟨_, _, rfl⟩
  simp only [run, bind, StateT.bind, executed, resolved, runStages_eq_outcome]
  generalize Executed.outcome value _ _ = ended
  obtain ⟨result, s''⟩ := ended
  cases result <;> rfl

end Engine

end Stencil
