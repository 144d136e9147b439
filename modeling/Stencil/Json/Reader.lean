/-
# Reading JSON

The strict grammar of JSON, with these decisions where it leaves room.

* A numeral without point and exponent is an integer if it fits 64 bits (signed or unsigned),
  otherwise a double; `-0` is a double.
* The significand of a double is gathered in 64 bits: digits that no longer fit only move the point.
  It is then scaled by powers of ten, each step a rounded multiplication or division, so the last
  digit need not be the nearest one.  An infinite result is refused.
* Lists and objects nest up to `depthLimit` levels.
* Of two members with the same key, the later one stays.

A reader takes the unread rest and gives what it has read and the new rest, or a fault.
-/
import Stencil.Json.Fault
import Stencil.Value.Basic

namespace Stencil.Json

open Stencil.Text

/-- A reader of the unread rest of a text. -/
abbrev Reader (α : Type) := List Char → Except Fault (α × List Char)

/-! ## 1. Spaces and words -/

/-- The four characters that JSON takes as space. -/
def isSpace (c : Char) : Bool := c == ' ' || c == '\n' || c == '\t' || c == '\r'

def skipSpace (cs : List Char) : List Char := cs.dropWhile isSpace

/-- The rest of a word whose first character has been seen. -/
def readWord (v : Value) : List Char → Reader Value
  | [], rest => .ok (v, rest)
  | _ :: _, [] => .error (.before .endInValue [])
  | w :: word, c :: rest =>
    if c == w then readWord v word rest else .error (.at .wordExpected (c :: rest))

/-! ## 2. Numbers -/

/-- The greatest significand. -/
def significandLimit : Nat := Nat.pow 2 64 - 1

/-- Digits read into a significand as long as it stays within the limit. -/
def readSignificand (significand : Nat) : List Char → Nat × List Char
  | [] => (significand, [])
  | c :: rest =>
    if c.isDigit && 10 * significand + digitValue c ≤ significandLimit then
      readSignificand (10 * significand + digitValue c) rest
    else (significand, c :: rest)

/-- A double divided by a power of ten, in steps of at most `10 ^ 308`. -/
def scaleDown (x : Binary64) (exponent : Nat) : Binary64 :=
  if exponent ≤ 308 then x.div (.powerOfTen exponent)
  else if x.isZero then x
  else scaleDown (x.div (.powerOfTen 308)) (exponent - 308)
termination_by exponent
decreasing_by omega

/-- A double times a power of ten; `none` if the result is infinite. -/
def scale (x : Binary64) (exponent : Int) : Option Binary64 :=
  if exponent < 0 then some (scaleDown x exponent.natAbs)
  else if exponent ≤ 308 then
    let y := x.mul (.powerOfTen exponent.natAbs)
    if y.isFinite then some y else none
  else if x.isZero then some x else none

/-- The double of a significand and a power of ten. -/
def floatOf (negative : Bool) (significand : Nat) (exponent : Int) : Reader Value := fun rest =>
  match scale (Binary64.ofInt significand) exponent with
  | some x => .ok (.number (.float (if negative then x.neg else x)), rest)
  | none => .error (.before .numberOutOfRange rest)

/-- The greatest exponent that is read. -/
def exponentLimit : Nat := Nat.pow 2 31 - 1

/-- The digits of an exponent.  One beyond the limit makes the number zero, or refuses it if it is
positive and the significand is not zero. -/
def readExponentDigits (negative : Bool) (significand : Nat) (start : Int) (below : Bool)
    (exponent : Nat) : Reader Value
  | [] => floatOf negative significand (if below then start - exponent else start + exponent) []
  | c :: rest =>
    if !c.isDigit then
      floatOf negative significand (if below then start - exponent else start + exponent)
        (c :: rest)
    else if exponentLimit < 10 * exponent + digitValue c then
      if significand != 0 && !below then .error (.before .numberOutOfRange rest)
      else .ok (.number (.float (Binary64.ofRatio negative 0 1)), rest.dropWhile Char.isDigit)
    else readExponentDigits negative significand start below (10 * exponent + digitValue c) rest

/-- An exponent, behind its `e`. -/
def readExponent (negative : Bool) (significand : Nat) (start : Int) (cs : List Char) :
    Except Fault (Value × List Char) :=
  let (below, rest) := match cs with
    | '+' :: rest => (false, rest)
    | '-' :: rest => (true, rest)
    | rest => (false, rest)
  match rest with
  | [] => .error (.before .endInValue [])
  | c :: more =>
    if c.isDigit then readExponentDigits negative significand start below (digitValue c) more
    else .error (.at .invalidNumber (c :: more))

/-- What may follow the digits of a double: an exponent or nothing. -/
def readAfterDigits (negative : Bool) (significand : Nat) (exponent : Int) : Reader Value
  | 'e' :: rest => readExponent negative significand exponent rest
  | 'E' :: rest => readExponent negative significand exponent rest
  | rest => floatOf negative significand exponent rest

/-- A fractional part, behind its point. -/
def readFraction (negative : Bool) (significand : Nat) (exponent : Int) (cs : List Char) :
    Except Fault (Value × List Char) :=
  match cs with
  | [] => .error (.before .endInValue [])
  | c :: _ =>
    if !c.isDigit then .error (.at .invalidNumber cs)
    else
      let (significand', rest) := readSignificand significand cs
      let taken : Nat := cs.length - rest.length
      readAfterDigits negative significand' (exponent - taken) (rest.dropWhile Char.isDigit)

/-- A number behind its sign. -/
def readNumber (negative : Bool) (cs : List Char) : Except Fault (Value × List Char) :=
  match cs with
  | [] => .error (.before .endInValue [])
  | '0' :: c :: rest =>
    if c.isDigit then .error (.at .invalidNumber (c :: rest)) else afterWhole 0 (c :: rest)
  | c :: rest =>
    if !c.isDigit then .error (.at .invalidNumber (c :: rest))
    else
      let (significand, rest) := readSignificand (digitValue c) rest
      let more := rest.takeWhile Char.isDigit
      if more.isEmpty then afterWhole significand rest
      else afterDropped significand more.length (rest.dropWhile Char.isDigit)
where
  /-- What follows a whole part that fits. -/
  afterWhole (significand : Nat) : Reader Value
    | '.' :: rest => readFraction negative significand 0 rest
    | 'e' :: rest => readExponent negative significand 0 rest
    | 'E' :: rest => readExponent negative significand 0 rest
    | rest =>
      if !negative then .ok (Value.ofInt significand, rest)
      else if significand = 0 || Nat.pow 2 63 < significand then
        .ok (.number (.float (Binary64.ofInt significand).neg), rest)
      else .ok (Value.ofInt (-significand), rest)
  /-- What follows a whole part of which some digits were dropped. -/
  afterDropped (significand dropped : Nat) : Reader Value
    | '.' :: rest => readFraction negative significand dropped rest
    | rest => readAfterDigits negative significand dropped rest

/-! ## 3. Strings -/

/-- The value of a hexadecimal digit. -/
def hexValue? (c : Char) : Option Nat :=
  if c.isDigit then some (digitValue c)
  else if 'a' ≤ c && c ≤ 'f' then some (c.toNat - 'a'.toNat + 10)
  else if 'A' ≤ c && c ≤ 'F' then some (c.toNat - 'A'.toNat + 10)
  else none

/-- Four hexadecimal digits.  A shorter rest is at its end, whatever it holds. -/
def readHex (cs : List Char) : Except Fault (Nat × List Char) :=
  if byteLength cs < 4 then .error (.before .endInString [])
  else
    match cs with
    | a :: b :: c :: d :: rest =>
      match hexValue? a, hexValue? b, hexValue? c, hexValue? d with
      | some a, some b, some c, some d => .ok (((a * 16 + b) * 16 + c) * 16 + d, rest)
      | _, _, _, _ => .error ⟨.invalidEscape, byteLength cs - 4⟩
    | _ => .error ⟨.invalidEscape, byteLength cs - 4⟩

/-- A `\u` escape behind its `u`; a character beyond U+FFFF is written as a surrogate pair. -/
def readUnicode (cs : List Char) : Except Fault (Char × List Char) := do
  let (high, rest) ← readHex cs
  if 0xDC00 ≤ high && high ≤ 0xDFFF then .error (.before .loneSurrogate rest)
  else if high < 0xD800 || 0xDBFF < high then .ok (Char.ofNat high, rest)
  else
    match rest with
    | [] => .error (.before .endInString [])
    | '\\' :: [] => .error (.before .endInString [])
    | '\\' :: 'u' :: rest => do
      let (low, rest) ← readHex rest
      if low < 0xDC00 || 0xDFFF < low then .error (.before .loneSurrogate rest)
      else .ok (Char.ofNat ((high - 0xD800) * 0x400 + (low - 0xDC00) + 0x10000), rest)
    | '\\' :: rest => .error (.at .endOfHexEscape rest)
    | rest => .error (.at .endOfHexEscape rest)

/-- An escape behind its backslash. -/
def readEscape (cs : List Char) : Except Fault (Char × List Char) :=
  match cs with
  | [] => .error (.before .endInString [])
  | '"' :: rest => .ok ('"', rest)
  | '\\' :: rest => .ok ('\\', rest)
  | '/' :: rest => .ok ('/', rest)
  | 'b' :: rest => .ok ('\x08', rest)
  | 'f' :: rest => .ok ('\x0c', rest)
  | 'n' :: rest => .ok ('\n', rest)
  | 'r' :: rest => .ok ('\r', rest)
  | 't' :: rest => .ok ('\t', rest)
  | 'u' :: rest => readUnicode rest
  | rest => .error (.at .invalidEscape rest)

/-- The characters of a string behind its opening quote; `passed` holds those already read, in
reverse order.  The first argument bounds the number of steps: one for each character left is
enough. -/
def readStringFrom : (steps : Nat) → (passed : List Char) → List Char →
    Except Fault (String × List Char)
  | 0, _, _ => .error (.before .endInString [])
  | _ + 1, _, [] => .error (.before .endInString [])
  | steps + 1, passed, c :: rest =>
    if c == '"' then .ok (String.ofList passed.reverse, rest)
    else if c == '\\' then do
      let (c, rest) ← readEscape rest
      readStringFrom steps (c :: passed) rest
    else if c.toNat < 0x20 then .error (.before .controlCharacter rest)
    else readStringFrom steps (c :: passed) rest

/-- A string behind its opening quote. -/
def readString (cs : List Char) : Except Fault (String × List Char) :=
  readStringFrom (cs.length + 1) [] cs

/-! ## 4. Lists and objects -/

/-- The items of a list from the second on, behind the item before; `items` holds those already
read, in reverse order.  The first argument bounds the number of items. -/
def readItems (item : Reader Value) : (steps : Nat) → (items : List Value) → Reader Value
  | 0, _, _ => .error (.before .endInList [])
  | steps + 1, items, cs =>
    match skipSpace cs with
    | [] => .error (.before .endInList [])
    | ']' :: rest => .ok (.array items.reverse, rest)
    | ',' :: rest =>
      match skipSpace rest with
      | [] => .error (.before .endInValue [])
      | ']' :: rest => .error (.at .trailingComma (']' :: rest))
      | rest => do
        let (v, rest) ← item rest
        readItems item steps (v :: items) rest
    | rest => .error (.at .listCommaOrEnd rest)

/-- A list behind its bracket. -/
def readList (item : Reader Value) (cs : List Char) : Except Fault (Value × List Char) :=
  match skipSpace cs with
  | [] => .error (.before .endInList [])
  | ']' :: rest => .ok (.array [], rest)
  | rest => do
    let (v, rest) ← item rest
    readItems item rest.length.succ [v] rest

/-- A member of an object behind the opening quote of its key. -/
def readMember (item : Reader Value) (cs : List Char) :
    Except Fault ((String × Value) × List Char) := do
  let (key, rest) ← readString cs
  match skipSpace rest with
  | ':' :: rest => do
    let (v, rest) ← item rest
    .ok ((key, v), rest)
  | [] => .error (.before .endInObject [])
  | rest => .error (.at .colonExpected rest)

/-- The members of an object from the second on, behind the member before. -/
def readMembers (item : Reader Value) : (steps : Nat) → (fields : Fields) → Reader Value
  | 0, _, _ => .error (.before .endInObject [])
  | steps + 1, fields, cs =>
    match skipSpace cs with
    | [] => .error (.before .endInObject [])
    | '}' :: rest => .ok (.object fields, rest)
    | ',' :: rest =>
      match skipSpace rest with
      | [] => .error (.before .endInValue [])
      | '"' :: rest => do
        let ((k, v), rest) ← readMember item rest
        readMembers item steps (fields.insert k v) rest
      | '}' :: rest => .error (.at .trailingComma ('}' :: rest))
      | rest => .error (.at .keyNotString rest)
    | rest => .error (.at .objectCommaOrEnd rest)

/-- An object behind its brace. -/
def readObject (item : Reader Value) (cs : List Char) : Except Fault (Value × List Char) :=
  match skipSpace cs with
  | [] => .error (.before .endInObject [])
  | '}' :: rest => .ok (.object [], rest)
  | '"' :: rest => do
    let ((k, v), rest) ← readMember item rest
    readMembers item rest.length.succ [(k, v)] rest
  | rest => .error (.at .keyNotString rest)

/-! ## 5. Values -/

/-- A value in which lists and objects nest at most `depth` levels. -/
def readValue (depth : Nat) (cs : List Char) : Except Fault (Value × List Char) :=
  match skipSpace cs with
  | [] => .error (.before .endInValue [])
  | '"' :: rest => do
    let (s, rest) ← readString rest
    .ok (.string s, rest)
  | '[' :: rest =>
    match depth with
    | 0 => .error (.before .tooDeep rest)
    | depth + 1 => readList (readValue depth) rest
  | '{' :: rest =>
    match depth with
    | 0 => .error (.before .tooDeep rest)
    | depth + 1 => readObject (readValue depth) rest
  | 'n' :: rest => readWord .null ['u', 'l', 'l'] rest
  | 't' :: rest => readWord (.bool true) ['r', 'u', 'e'] rest
  | 'f' :: rest => readWord (.bool false) ['a', 'l', 's', 'e'] rest
  | '-' :: rest => readNumber true rest
  | c :: rest =>
    if c.isDigit then readNumber false (c :: rest) else .error (.at .valueExpected (c :: rest))

/-- How deep lists and objects may nest. -/
def depthLimit : Nat := 127

/-- The value that a whole text writes. -/
def read (cs : List Char) : Except Fault Value := do
  let (v, rest) ← readValue depthLimit cs
  match skipSpace rest with
  | [] => .ok v
  | rest => .error (.at .trailingCharacters rest)

/-- The value that a text writes, if it is JSON. -/
def read? (cs : List Char) : Option Value := (read cs).toOption

end Stencil.Json
