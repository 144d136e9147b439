/-
# Why a text is not JSON

A fault has a cause and a place.  The place is counted in bytes from the end of the text while
reading, since a reader knows what is left and not what was before; `Fault.describe` turns it into a
line and a column for the reader of the message.
-/
import Stencil.Text.Bytes
import Stencil.Text.Digit

namespace Stencil.Json

/-- What is wrong with a text. -/
inductive Cause
  | valueExpected
  | endInValue
  | endInList
  | endInObject
  | endInString
  | wordExpected
  | colonExpected
  | listCommaOrEnd
  | objectCommaOrEnd
  | trailingComma
  | keyNotString
  | trailingCharacters
  | invalidNumber
  | numberOutOfRange
  | invalidEscape
  | loneSurrogate
  | endOfHexEscape
  | controlCharacter
  | tooDeep
  deriving DecidableEq, Repr

/-- The wording of a cause. -/
def Cause.message : Cause → String
  | valueExpected => "expected value"
  | endInValue => "EOF while parsing a value"
  | endInList => "EOF while parsing a list"
  | endInObject => "EOF while parsing an object"
  | endInString => "EOF while parsing a string"
  | wordExpected => "expected ident"
  | colonExpected => "expected `:`"
  | listCommaOrEnd => "expected `,` or `]`"
  | objectCommaOrEnd => "expected `,` or `\x7d`"
  | trailingComma => "trailing comma"
  | keyNotString => "key must be a string"
  | trailingCharacters => "trailing characters"
  | invalidNumber => "invalid number"
  | numberOutOfRange => "number out of range"
  | invalidEscape => "invalid escape"
  | loneSurrogate => "lone leading surrogate in hex escape"
  | endOfHexEscape => "unexpected end of hex escape"
  | controlCharacter => "control character (\\u0000-\\u001F) found while parsing a string"
  | tooDeep => "recursion limit exceeded"

/-- A cause and the number of bytes behind the place where it was found. -/
structure Fault where
  cause : Cause
  unread : Nat
  deriving DecidableEq, Repr

/-- A fault in front of the unread rest. -/
def Fault.before (cause : Cause) (rest : List Char) : Fault := ⟨cause, Text.byteLength rest⟩

/-- A fault at the first byte of the unread rest, or at the end of the text. -/
def Fault.at (cause : Cause) (rest : List Char) : Fault := ⟨cause, Text.byteLength rest - 1⟩

/-- Line and column after a number of bytes of a text: the line counts from 1, the column is the
number of bytes since the line began. -/
def position (bytes : Nat) (text : List Char) : Nat × Nat := go bytes 1 0 text
where
  go (left line column : Nat) : List Char → Nat × Nat
    | [] => (line, column)
    | c :: rest =>
      if left < c.utf8Size then (line, column + left)
      else if c == '\n' then go (left - 1) (line + 1) 0 rest
      else go (left - c.utf8Size) line (column + c.utf8Size) rest

/-- The message for a fault in a text, with the place where it was found. -/
def Fault.describe (fault : Fault) (text : List Char) : String :=
  let (line, column) := position (Text.byteLength text - fault.unread) text
  fault.cause.message ++ " at line " ++ String.ofList (Text.decimalDigits line) ++ " column "
    ++ String.ofList (Text.decimalDigits column)

end Stencil.Json
