/-
# Filter definitions

A definition says what a filter does (its transform), where in a chain it runs (its priority), what
its arguments are called and default to, where its section of the configuration is, and which
handlers it has of its own for faults and empty values.

Transforms and handlers are functions from outside.  They may have effects of their own, which are
kept in a state of any type `σ`: a value that is produced on demand, a counter, a log.  A transform
also gives back the context, in which it may install handlers for the rest of its chain; a handler
reads the occasion only.
-/
import Stencil.Filter.Arguments
import Stencil.Filter.Policy

namespace Stencil

/-! ## 1. What filters see -/

/-- What a filter is told about the placeholder it runs for. -/
structure Occasion where
  /-- The name of the placeholder; empty for `{}`. -/
  name : String
  /-- The value the chain started with. -/
  value : Value
  /-- The whole template. -/
  template : String
  /-- The text of the placeholder, braces included. -/
  matched : String
  leading : String
  trailing : String
  /-- The slots of the filter that is running. -/
  args : List Slot := []
  /-- The section of the configuration of the filter that is running. -/
  config : Option Value := none

/-- A handler for faults: it gets the fault and the value that the filter was given. -/
abbrev ErrorHandler (σ : Type) :=
  Fault → Value → Arguments → Occasion → StateM σ (Except Fault Behavior)

/-- A handler for empty values: it gets the empty value. -/
abbrev EmptyHandler (σ : Type) :=
  Value → Arguments → Occasion → StateM σ (Except Fault Behavior)

/-- What the filters of one placeholder share: the occasion, and the handlers that filters have
installed for the ones behind them. -/
structure Context (σ : Type) extends Occasion where
  onError : Option (ErrorHandler σ) := none
  onEmpty : Option (EmptyHandler σ) := none

/-- What a filter does to a value.  Changes of the context stay, also when the filter fails. -/
abbrev Transform (σ : Type) :=
  Value → Arguments → Context σ → StateM σ (Except Fault Value × Context σ)

/-- A transform that neither has effects nor reads the context. -/
def Transform.pure {σ : Type} (f : Value → Arguments → Except Fault Value) : Transform σ :=
  fun value args ctx => StateT.pure (f value args, ctx)

/-! ## 2. Definitions -/

/-- Where a filter runs in its chain. -/
inductive Priority
  | before
  | normal
  | after
  deriving DecidableEq, Repr

/-- Filters of a lower rank run first. -/
def Priority.rank : Priority → Nat
  | before => 0
  | normal => 1
  | after => 2

/-- The default values of the arguments of a filter. -/
inductive Defaults (σ : Type)
  | none
  | fixed (fields : Fields)
  /-- Made anew for every run. -/
  | factory (make : StateM σ Fields)

namespace Defaults

variable {σ : Type}

/-- Defaults from an object; any other value means none. -/
def ofValue : Value → Defaults σ
  | .object fields => fixed fields
  | _ => none

/-- The defaults of one run. -/
def evaluate : Defaults σ → StateM σ Fields
  | none => pure []
  | fixed fields => pure fields
  | factory make => make

end Defaults

/-- A filter. -/
structure Definition (σ : Type) where
  name : String
  transform : Transform σ
  priority : Priority := .normal
  defaults : Defaults σ := .none
  /-- The names of positional arguments, in order. -/
  parameters : Option (List String) := none
  /-- The dotted path of the section of the configuration. -/
  configKey : Option String := none
  onError : Option (ErrorHandler σ) := none
  onEmpty : Option (EmptyHandler σ) := none
  /-- A control filter installs handlers and hands its value on; its output is never tested for
  emptiness. -/
  control : Bool := false

/-- A name of blanks only is no name. -/
def Definition.flaw? {σ : Type} (d : Definition σ) : Option Flaw :=
  if (Text.trim d.name.toList).isEmpty then some .blankName else none

/-! ## 3. Building a definition step by step -/

/-- A definition in the making, which may lack its transform. -/
structure Builder (σ : Type) where
  name : String
  transform : Option (Transform σ) := none
  priority : Priority := .normal
  defaults : Defaults σ := .none
  parameters : Option (List String) := none
  configKey : Option String := none
  onError : Option (ErrorHandler σ) := none
  onEmpty : Option (EmptyHandler σ) := none

/-- The finished definition.  A missing transform is reported first, a blank name second. -/
def Builder.build {σ : Type} (b : Builder σ) : Except Error (Definition σ) :=
  match b.transform with
  | none => .error (.invalidFilter (.noTransform b.name))
  | some transform =>
    let d : Definition σ :=
      { name := b.name, transform, priority := b.priority, defaults := b.defaults,
        parameters := b.parameters, configKey := b.configKey, onError := b.onError,
        onEmpty := b.onEmpty }
    match d.flaw? with
    | some flaw => .error (.invalidFilter flaw)
    | none => .ok d

end Stencil
