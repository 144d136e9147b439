/-
# Values

The data that flows through a chain of filters: null, booleans, numbers, texts, lists and objects.
A number is an integer or a double, and the two stay apart: `3` is not `3.0`.  The members of an
object are kept in the order of their keys, each key once.
-/
import Stencil.Keyed
import Stencil.Number.Binary64

namespace Stencil

/-- A number: an integer between `-2 ^ 63` and `2 ^ 64 - 1`, or a finite double. -/
inductive Number
  | int (value : Int)
  | float (value : Binary64)
  deriving DecidableEq, Repr

/-- A value. -/
inductive Value
  | null
  | bool (value : Bool)
  | number (value : Number)
  | string (text : String)
  | array (items : List Value)
  | object (fields : List (String × Value))
  deriving Repr

/-- The members of an object, in the order of their keys. -/
abbrev Fields := Keyed Value

instance : Inhabited Value := ⟨.null⟩

/-- The integers that a number can hold. -/
def Number.isInteger (i : Int) : Bool := -(Nat.pow 2 63 : Int) ≤ i && i < (Nat.pow 2 64 : Int)

/-- The double nearest to a number. -/
def Number.toBinary64 : Number → Binary64
  | .int i => Binary64.ofInt i
  | .float x => x

namespace Value

/-- An integer as a value. -/
def ofInt (i : Int) : Value := .number (.int i)

/-- A text as a value. -/
def ofChars (cs : List Char) : Value := .string (String.ofList cs)

/-- An object from pairs in any order; of two with the same key, the later one stays. -/
def ofPairs (pairs : List (String × Value)) : Value := .object (Keyed.ofList pairs)

def isNull : Value → Bool
  | .null => true
  | _ => false

/-- The text of a text value. -/
def text? : Value → Option String
  | .string s => some s
  | _ => none

/-- The truth value of a boolean. -/
def bool? : Value → Option Bool
  | .bool b => some b
  | _ => none

/-- The members of an object. -/
def fields? : Value → Option Fields
  | .object fields => some fields
  | _ => none

end Value

end Stencil
