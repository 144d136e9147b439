/-
# The built-in operations

Operations that every engine knows without registration.  A name may stand for one operation per
kind of value (`len` and `slice` work on texts and on lists).  A value for whose kind a name has no
operation passes through unchanged.
-/
import Stencil.Filter.Definition
import Stencil.Operation.Items
import Stencil.Operation.Number
import Stencil.Operation.Text

namespace Stencil.Operation

/-- The names of the built-in operations. -/
def names : List String :=
  onText.map Prod.fst ++ onNumber.map Prod.fst ++ onItems.map Prod.fst

/-- The operation of a name on the kind of the value, if there is one. -/
def apply (name : String) (value : Value) (args : Arguments) : Except Fault Value :=
  match value with
  | .string s => ((onText.lookup name).map fun op => op s.toList args).getD (.ok value)
  | .number n => ((onNumber.lookup name).map fun op => op n.toBinary64 args).getD (.ok value)
  | .array items => ((onItems.lookup name).map fun op => op items args).getD (.ok value)
  | _ => .ok value

/-- The definition of a built-in operation. -/
def definition? {σ : Type} (name : String) : Option (Definition σ) :=
  if names.contains name then some { name, transform := .pure (apply name) } else none

end Stencil.Operation
