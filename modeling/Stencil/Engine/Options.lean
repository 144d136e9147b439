/-
# Options of an engine

What an engine does with a placeholder that has no value, its handlers for faults and empty values,
its own test for emptiness, a source of filters that are not registered, and the configuration in
which filters find their sections.
-/
import Stencil.Filter.Definition

namespace Stencil

/-- A placeholder without a value: by its name, or by its position among the placeholders. -/
inductive MissingKey
  | name (name : String)
  | index (index : Nat)
  deriving DecidableEq, Repr

/-- What to do with a placeholder that has no value. -/
inductive Missing (σ : Type)
  /-- Take the empty text; the chain still runs. -/
  | default
  /-- Leave the placeholder as it is and run nothing. -/
  | ignore
  /-- Ask for a value; the chain runs on the answer. -/
  | ask (answer : MissingKey → StateM σ Value)

/-- The value for a placeholder that has none; `none` leaves the placeholder as it is. -/
def Missing.value? {σ : Type} (m : Missing σ) (key : MissingKey) : StateM σ (Option Value) :=
  match m with
  | default => pure (some (.string ""))
  | ignore => pure none
  | ask answer => do return some (← answer key)

/-- What a source of filters hands back: a whole definition or a mere transform. -/
inductive Supplied (σ : Type)
  | definition (d : Definition σ)
  | transform (t : Transform σ)

/-- Hands back a filter for a name. -/
abbrev Source (σ : Type) := String → StateM σ (Option (Supplied σ))

/-- The definition that a source hands back for a name; it takes the name if it has none. -/
def Supplied.toDefinition {σ : Type} (name : String) : Supplied σ → Definition σ
  | definition d => if d.name.isEmpty then { d with name } else d
  | transform t => { name, transform := t }

/-- The options of an engine. -/
structure Options (σ : Type) where
  missing : Missing σ := .default
  onError : Option (ErrorHandler σ) := none
  onEmpty : Option (EmptyHandler σ) := none
  /-- Takes the place of the default test for emptiness.  It has no effects. -/
  isEmpty : Option (Value → Bool) := none
  /-- Asked for the filters that are not registered. -/
  source : Option (Source σ) := none
  config : Value := .null

namespace Options

variable {σ : Type}

/-- The test for emptiness that counts. -/
def tests (o : Options σ) (v : Value) : Bool :=
  match o.isEmpty with
  | some test => test v
  | none => v.isEmpty

end Options

/-! ## Sections of the configuration -/

/-- The index that a step of a path writes: digits without a sign or a superfluous zero. -/
def Value.stepIndex? (step : List Char) : Option Nat :=
  if step.isEmpty || !step.all Char.isDigit || (step.head? == some '0' && step.length != 1) then
    none
  else some (Text.digitsValue step)

/-- A step of a path with its escapes resolved: `~1` is a slash and `~0` a tilde. -/
def Value.unescapeStep (step : List Char) : List Char :=
  Text.replaceAll ['~', '0'] ['~'] (Text.replaceAll ['~', '1'] ['/'] step)

/-- What a value holds under the steps of a path: members of objects and items of lists. -/
def Value.follow (v : Value) : (steps : List (List Char)) → Option Value
  | [] => some v
  | step :: steps =>
    match v with
    | .object fields =>
      (Keyed.find? (String.ofList (unescapeStep step)) fields).bind fun inner =>
        follow inner steps
    | .array items => ((stepIndex? step).bind fun i => items[i]?).bind fun inner =>
        follow inner steps
    | _ => none

/-- The section of a configuration under a dotted path.  The path is taken as a pointer into the
configuration, in which a slash separates steps as well as a dot. -/
def Value.section? (config : Value) (key : String) : Option Value :=
  if key.isEmpty then none
  else
    let path := key.toList.map fun c => if c == '.' then '/' else c
    config.follow (Text.splitOn ['/'] path)

end Stencil
