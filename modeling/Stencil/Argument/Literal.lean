/-
# Object and list literals

An object or list in an argument list may be written as strict JSON, or in the relaxed form people
write by hand, with bare words and single quotes: `{unit:'$', n:1}`.  `Literal.toStrict` turns the
relaxed form into JSON and leaves JSON as it is; `Literal.read?` tries the text first as it stands
and then in its strict form.
-/
import Stencil.Json.Reader
import Stencil.Text.Letter
import Stencil.Text.Blank

namespace Stencil.Literal

open Stencil.Text

/-! ## 1. The pieces of a literal -/

/-- The body of a string behind its opening quote, as it reads between double quotes, and the rest
behind its closing quote.  An escape stays, but a single quote needs none; a double quote gets
one. -/
def stringBody (quote : Char) : List Char → List Char × List Char
  | [] => ([], [])
  | '\\' :: c :: rest =>
    let (body, rest) := stringBody quote rest
    (if c == '\'' then c :: body else '\\' :: c :: body, rest)
  | c :: rest =>
    if c == quote then ([], rest)
    else
      let (body, rest) := stringBody quote rest
      (if c == '"' then '\\' :: c :: body else c :: body, rest)

theorem stringBody_length (quote : Char) (cs : List Char) :
    (stringBody quote cs).2.length ≤ cs.length := by
  fun_induction stringBody quote cs with
  | case1 => simp
  | case2 c rest body rest' eq ih => simp only [eq, List.length_cons] at ih ⊢; omega
  | case3 c rest other same => simp
  | case4 c rest other different body rest' eq ih => simp only [eq, List.length_cons] at ih ⊢; omega

/-- A numeral starts with one of these. -/
def startsNumeral (c : Char) : Bool := c.isDigit || c == '-' || c == '+' || c == '.'

/-- A numeral goes on with these. -/
def inNumeral (c : Char) : Bool := c.isAlphanum || c == '.' || c == '-' || c == '+'

/-- A bare word starts with one of these. -/
def startsWord (c : Char) : Bool := isAlphabetic c || c == '_' || c == '$'

/-- A bare word goes on with these. -/
def inWord (c : Char) : Bool := isAlphanumeric c || c == '_' || c == '$'

/-- The words that JSON knows. -/
def isKeyword (word : List Char) : Bool :=
  word == "true".toList || word == "false".toList || word == "null".toList

/-- The first character behind the blanks is a colon. -/
def colonFollows (cs : List Char) : Bool := (trimStart cs).head? == some ':'

/-- A bare word in front of a rest: a keyword stays, unless it is a key; other words get quotes. -/
def wordText (word rest : List Char) : List Char :=
  if isKeyword word && !colonFollows rest then word else '"' :: word ++ ['"']

/-! ## 2. The whole literal -/

/-- A relaxed literal as JSON. -/
def toStrict : List Char → List Char
  | [] => []
  | c :: rest =>
    if c == '\'' || c == '"' then
      '"' :: (stringBody c rest).1 ++ '"' :: toStrict (stringBody c rest).2
    else if startsNumeral c then
      c :: rest.takeWhile inNumeral ++ toStrict (rest.dropWhile inNumeral)
    else if startsWord c then
      wordText (c :: rest.takeWhile inWord) (rest.dropWhile inWord) ++
        toStrict (rest.dropWhile inWord)
    else c :: toStrict rest
termination_by cs => cs.length
decreasing_by
  · have := stringBody_length c rest
    simp only [List.length_cons]; omega
  · have := (List.dropWhile_suffix inNumeral (l := rest)).length_le
    simp only [List.length_cons]; omega
  · have := (List.dropWhile_suffix inWord (l := rest)).length_le
    simp only [List.length_cons]; omega
  · simp

/-- The value that a literal writes, strictly or in the relaxed form. -/
def read? (cs : List Char) : Option Value := Json.read? cs <|> Json.read? (toStrict cs)

end Stencil.Literal
