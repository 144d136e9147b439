/-
# Control filters

`error(..)` and `empty(..)` set the policy of one placeholder:

    { price | error('abort', 'N/A') | to_fixed(2) }

They run before all filters of normal priority, install a handler for the rest of the chain and hand
their value on.  The first argument is a keyword, `ignore`, `abort` or `throw` in any case; an
unknown one means the default.  The second is the value to go on or stop with, or the message to
throw; null counts as absent.
-/
import Stencil.Filter.Definition

namespace Stencil

/-- The three keywords. -/
inductive Keyword
  | ignore
  | abort
  | throw
  deriving DecidableEq, Repr

namespace Keyword

/-- The keyword that a text writes, else the default. -/
def read (default : Keyword) (text? : Option String) : Keyword :=
  match text?.map fun text => String.ofList ((Text.trim text.toList).map Char.toLower) with
  | some "ignore" => ignore
  | some "abort" => abort
  | some "throw" => throw
  | _ => default

/-- A value as the message of a fault: a text as it is, other values as JSON. -/
def fault : Value → Fault
  | .string s => .custom s
  | v => .custom (Json.print v)

/-- What a handler answers that was installed with a keyword and a payload. -/
def behavior (keyword : Keyword) (payload : Option Value) : Behavior :=
  match keyword with
  | ignore => .ignore payload
  | abort => .abort payload
  | throw => .throw (payload.map fault)

end Keyword

namespace Control

variable {σ : Type}

/-- An argument as a payload; null counts as absent. -/
def payload (args : Arguments) (name : String) : Option Value :=
  (args.get? name).filter fun v => !v.isNull

/-- The filter `error(operate, message)`. -/
def error : Definition σ where
  name := "error"
  priority := .before
  parameters := some ["operate", "message"]
  defaults := .fixed [("operate", .string "ignore")]
  control := true
  transform := fun value args ctx =>
    let behavior := (Keyword.read .ignore (args.text? "operate")).behavior (payload args "message")
    pure (.ok value, { ctx with onError := some fun _ _ _ _ => pure (.ok behavior) })

/-- The filter `empty(operate, value)`. -/
def empty : Definition σ where
  name := "empty"
  priority := .before
  parameters := some ["operate", "value"]
  defaults := .fixed [("operate", .string "abort")]
  control := true
  transform := fun value args ctx =>
    let behavior := (Keyword.read .abort (args.text? "operate")).behavior (payload args "value")
    pure (.ok value, { ctx with onEmpty := some fun _ _ _ => pure (.ok behavior) })

end Control

end Stencil
