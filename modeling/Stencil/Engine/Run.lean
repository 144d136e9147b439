/-
# Running a chain

All calls of a chain are resolved first, those of unknown names are dropped, and the rest is put in
the order of priority, calls of equal priority staying as they are written.  Then the stages run one
after another, each on the value of the one before:

    value ──▶ stage ──▶ … ──▶ stage ──▶ leading literal, text of the value, trailing literal
                │
                └─ a fault, or an empty value of a filter that is not a control filter:
                   the handler in force decides how the chain goes on

The handler in force is the one that a filter of this chain has installed last, else the one of the
filter's own definition, else the one of the options; none, one or the other, never two.  The
literals are left out when the final value is empty.
-/
import Stencil.Engine.Basic
import Stencil.Template.Placeholder

namespace Stencil

/-- A filter of a chain with the slots of its call. -/
structure Stage (σ : Type) where
  definition : Definition σ
  slots : List Slot

variable {σ : Type}

/-! ## 1. The stages of a chain -/

/-- The stages of a chain in the order in which they are written. -/
def Engine.resolveAll (e : Engine σ) : List Call → StateM σ (List (Stage σ))
  | [] => pure []
  | call :: rest => do
    let d? ← e.resolve call.name
    let stages ← e.resolveAll rest
    match d? with
    | some d => pure (⟨d, call.args⟩ :: stages)
    | none => pure stages

/-- When a stage runs: stages of a lower rank run first. -/
def Stage.rank (s : Stage σ) : Nat := s.definition.priority.rank

/-- A stage put in front of the first one that does not run before it. -/
def Stage.place (s : Stage σ) : List (Stage σ) → List (Stage σ)
  | [] => [s]
  | t :: rest => if s.rank ≤ t.rank then s :: t :: rest else t :: Stage.place s rest

/-- Stages in the order of their ranks, equal ones as they were. -/
def Stage.ordered (stages : List (Stage σ)) : List (Stage σ) := stages.foldr Stage.place []

/-! ## 2. One stage -/

namespace Engine

/-- The handler for faults that is in force for a filter. -/
def errorHandler? (e : Engine σ) (ctx : Context σ) (d : Definition σ) :
    Option (ErrorHandler σ) :=
  ctx.onError <|> d.onError <|> e.options.onError

/-- The handler for empty values that is in force for a filter. -/
def emptyHandler? (e : Engine σ) (ctx : Context σ) (d : Definition σ) :
    Option (EmptyHandler σ) :=
  ctx.onEmpty <|> d.onEmpty <|> e.options.onEmpty

/-- Asks the handler for faults that is in force. -/
def handleFault (e : Engine σ) (ctx : Context σ) (d : Definition σ) (args : Arguments)
    (fault : Fault) (input : Value) : StateM σ Flow := do
  match e.errorHandler? ctx d with
  | none => pure (Flow.afterFault d.name fault input none)
  | some handler =>
    let outcome ← handler fault input args ctx.toOccasion
    pure (Flow.afterFault d.name fault input (some outcome))

/-- Asks the handler for empty values that is in force. -/
def handleEmpty (e : Engine σ) (ctx : Context σ) (d : Definition σ) (args : Arguments)
    (input empty : Value) : StateM σ Flow := do
  match e.emptyHandler? ctx d with
  | none => pure (Flow.afterEmpty d.name input empty none)
  | some handler =>
    let outcome ← handler empty args ctx.toOccasion
    pure (Flow.afterEmpty d.name input empty (some outcome))

/-- One stage on a value: how the chain goes on, and the context for the stages behind it. -/
def runStage (e : Engine σ) (stage : Stage σ) (ctx : Context σ) (input : Value) :
    StateM σ (Flow × Context σ) := do
  let d := stage.definition
  let section? := d.configKey.bind e.options.config.section?
  let defaults ← d.defaults.evaluate
  let args := Arguments.layered defaults section? d.parameters stage.slots
  let (result, ctx) ← d.transform input args
    { ctx with args := stage.slots, config := section? }
  match result with
  | .error fault => do
    let flow ← e.handleFault ctx d args fault input
    pure (flow, ctx)
  | .ok output =>
    if d.control || !e.options.tests output then pure (.proceed output, ctx)
    else do
      let flow ← e.handleEmpty ctx d args input output
      pure (flow, ctx)

/-! ## 3. The whole chain -/

/-- Stages one after another on a value, until they end, one stops the chain, or one raises an
error. -/
def runStages (e : Engine σ) (ctx : Context σ) (value : Value) :
    List (Stage σ) → StateM σ (Except Error Value)
  | [] => pure (.ok value)
  | stage :: rest => do
    let (flow, ctx) ← e.runStage stage ctx value
    match flow with
    | .proceed next => e.runStages ctx next rest
    | .stop last => pure (.ok last)
    | .raise error => pure (.error error)

/-- The text that a placeholder becomes with its final value. -/
def wrap (e : Engine σ) (p : Placeholder) (value : Value) : String :=
  if e.options.tests value then value.render else p.leading ++ value.render ++ p.trailing

/-- The context in which the chain of a placeholder starts. -/
def startContext (template : String) (p : Placeholder) (value : Value) : Context σ :=
  { name := p.name, value, template, matched := p.matched, leading := p.leading,
    trailing := p.trailing }

/-- The text that a placeholder becomes with a value to start with. -/
def run (e : Engine σ) (template : String) (p : Placeholder) (value : Value) :
    StateM σ (Except Error String) := do
  let stages ← e.resolveAll p.chain
  match ← e.runStages (startContext template p value) value (Stage.ordered stages) with
  | .ok last => pure (.ok (e.wrap p last))
  | .error error => pure (.error error)

end Engine

end Stencil
