/-
# Operations on lists

Joining the texts of the items, turning the order round, the item at either end, slicing and length.
-/
import Stencil.Operation.Offsets

namespace Stencil.Operation

/-- An operation on a list. -/
abbrev OnItems := List Value → Arguments → Except Fault Value

/-- The texts of the items with the separator between them. -/
def join : OnItems := fun items args =>
  let separator := (text? args 0).getD [',']
  .ok (.ofChars (separator.intercalate (items.map fun v => v.render.toList)))

def reverse : OnItems := fun items _ => .ok (.array items.reverse)

/-- The first item, null if there is none. -/
def first : OnItems := fun items _ => .ok (items.head?.getD .null)

/-- The last item, null if there is none. -/
def last : OnItems := fun items _ => .ok (items.getLast?.getD .null)

def sliceItems : OnItems := fun items args =>
  .ok (.array (slice items (integer? args 0) (integer? args 1)))

def lengthOfItems : OnItems := fun items _ => .ok (.ofInt items.length)

/-- The operations on lists by name. -/
def onItems : List (String × OnItems) := [
  ("join", join),
  ("reverse", reverse),
  ("first", first),
  ("last", last),
  ("slice", sliceItems),
  ("len", lengthOfItems)]

end Stencil.Operation
