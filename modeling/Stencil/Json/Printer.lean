/-
# Compact JSON text

The text of a value in JSON without any space: members in the order of their keys, in strings only
quotes, backslashes and the control characters below U+0020 escaped.  A double is written by its
shortest digits, a tie going to the even one; between `10 ^ -5` and `10 ^ 16` without an exponent, a
whole one with `.0`, beyond that as `d.ddde+N` or `d.ddde-N`.
-/
import Stencil.Value.Basic
import Stencil.Number.Decimal

namespace Stencil.Json

open Stencil.Text

/-! ## 1. Scalars -/

/-- One of the sixteen digits of hexadecimal notation, in lower case. -/
def hexDigit (n : Nat) : Char := Nat.digitChar n

/-- One character of a string. -/
def escape (c : Char) : List Char :=
  match c with
  | '"' => ['\\', '"']
  | '\\' => ['\\', '\\']
  | '\x08' => ['\\', 'b']
  | '\x0c' => ['\\', 'f']
  | '\n' => ['\\', 'n']
  | '\r' => ['\\', 'r']
  | '\t' => ['\\', 't']
  | c =>
    if c.toNat < 0x20 then
      ['\\', 'u', '0', '0', hexDigit (c.toNat / 16), hexDigit (c.toNat % 16)]
    else [c]

/-- A string in quotes. -/
def stringText (s : String) : List Char := '"' :: s.toList.flatMap escape ++ ['"']

/-- An integer in decimal. -/
def integerText (i : Int) : List Char :=
  Binary64.signText (i < 0) ++ decimalDigits i.natAbs

/-- The digits and the exponent of a double that is not zero. -/
def scientificText (x : Binary64.Scientific) : List Char :=
  if -5 ≤ x.exponent && x.exponent ≤ 15 then
    let (whole, fraction) := x.parts
    whole ++ '.' :: (if fraction.isEmpty then ['0'] else fraction)
  else
    let point := if x.digits.length = 1 then [] else '.' :: x.digits.drop 1
    let sign := if x.exponent < 0 then '-' else '+'
    x.digits.take 1 ++ point ++ 'e' :: sign :: decimalDigits x.exponent.natAbs

/-- A double.  The two kinds that JSON cannot write stand as `null`. -/
def floatText : Binary64 → List Char
  | .nan | .infinite _ => "null".toList
  | .finite negative m e =>
    Binary64.signText negative ++
      if m = 0 then ['0', '.', '0'] else scientificText (Binary64.shortest .even m e)

/-- A number. -/
def numberText : Number → List Char
  | .int i => integerText i
  | .float x => floatText x

/-! ## 2. Values -/

mutual

/-- The text of a value. -/
def text : Value → List Char
  | .null => "null".toList
  | .bool true => "true".toList
  | .bool false => "false".toList
  | .number n => numberText n
  | .string s => stringText s
  | .array items => '[' :: itemsText items ++ [']']
  | .object fields => '{' :: fieldsText fields ++ ['}']

/-- The items of a list, separated by commas. -/
def itemsText : List Value → List Char
  | [] => []
  | [v] => text v
  | v :: rest => text v ++ ',' :: itemsText rest

/-- The members of an object, separated by commas. -/
def fieldsText : List (String × Value) → List Char
  | [] => []
  | [(k, v)] => stringText k ++ ':' :: text v
  | (k, v) :: rest => stringText k ++ ':' :: (text v ++ ',' :: fieldsText rest)

end

/-- The compact JSON text of a value. -/
def print (v : Value) : String := String.ofList (text v)

end Stencil.Json
