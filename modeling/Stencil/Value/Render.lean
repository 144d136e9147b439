/-
# From values to text and numbers

What a value contributes to a filled template (`render`), when it counts as empty, and how values
and doubles are turned into each other.  A whole double below the limit becomes an integer on the
way in (`ofBinary64`) and is written without a fractional part on the way out.
-/
import Stencil.Json.Printer
import Stencil.Text.Blank

namespace Stencil

/-- Whole doubles below this bound are written as integers. -/
def renderLimit : Nat := Nat.pow 10 15

/-- A number in a filled template: an integer in decimal, a double without an exponent. -/
def Number.render : Number → List Char
  | .int i => Json.integerText i
  | .float x =>
    if x.isWhole && x.magnitudeBelow renderLimit then Json.integerText x.toInteger
    else x.display

namespace Value

/-- The default test for emptiness: null and the empty text. -/
def isEmpty : Value → Bool
  | .null => true
  | .string s => s.isEmpty
  | _ => false

/-- The text of a value in a filled template: texts as they are, null as nothing, lists and objects
as compact JSON. -/
def render : Value → String
  | .null => ""
  | .string s => s
  | .bool true => "true"
  | .bool false => "false"
  | .number n => String.ofList n.render
  | v@(.array _) => Json.print v
  | v@(.object _) => Json.print v

@[simp] theorem toList_render_ofChars (cs : List Char) : (ofChars cs).render.toList = cs := by
  simp [ofChars, render]

/-- Whole doubles below this bound become integers. -/
def integerLimit : Nat := 9 * Nat.pow 10 15

/-- A double as a value: an integer where it is whole and below the limit, null where it is not
finite. -/
def ofBinary64 (x : Binary64) : Value :=
  if x.isWhole && x.magnitudeBelow integerLimit then .ofInt x.toInteger
  else if x.isFinite then .number (.float x)
  else .null

/-- The number in a value: numbers themselves, texts that write one between blanks, booleans as
zero and one. -/
def toBinary64? : Value → Option Binary64
  | .number n => some n.toBinary64
  | .string s => Binary64.read? (Text.trim s.toList)
  | .bool b => some (Binary64.ofInt (if b then 1 else 0))
  | _ => none

end Value

end Stencil
