/-
# Operations on numbers

Fixed decimal places, the absolute value, and the three ways to a whole number.  All of them work
on the double nearest to the number.
-/
import Stencil.Operation.Offsets

namespace Stencil.Operation

/-- An operation on a number. -/
abbrev OnNumber := Binary64 → Arguments → Except Fault Value

/-- An operation that makes a number of a number. -/
def mapNumber (f : Binary64 → Binary64) : OnNumber := fun x _ => .ok (.ofBinary64 (f x))

/-- The most decimal places that can be asked for. -/
def placesLimit : Int := 100

/-- The number with as many decimal places as the first argument says, none without it. -/
def toFixed : OnNumber := fun x args =>
  let places := (integer? args 0).getD 0
  if places < 0 || placesLimit < places then .error (.placesOutOfRange places)
  else .ok (.ofChars (x.fixed places.toNat))

/-- The operations on numbers by name. -/
def onNumber : List (String × OnNumber) := [
  ("to_fixed", toFixed),
  ("abs", mapNumber Binary64.abs),
  ("round", mapNumber Binary64.round),
  ("floor", mapNumber Binary64.floor),
  ("ceil", mapNumber Binary64.ceil)]

end Stencil.Operation
