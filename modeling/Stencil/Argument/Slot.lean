/-
# Argument lists

The text between the parentheses of a filter call is a list of slots, separated by commas:

    '$', , true, 2.5, {prefix:'$'}, [1,2], word

A slot is unset (the second one here) or holds a value.  Its text is, in this order of preference, a
quoted string, a region of braces, a region of brackets, or whatever stands up to the next comma;
the first three only if nothing but blanks follows them in their slot.  Regions are found by their
depth marks, so they are marked over the whole list first, inside quotes too, and taken out again
from each piece.

Reading never fails: what is no literal, number or keyword is a text.
-/
import Stencil.Argument.Depth
import Stencil.Argument.Literal
import Stencil.Number.Decimal
import Stencil.Value.Render

namespace Stencil

/-- One slot of an argument list; `none` is an unset slot, which is not the same as null. -/
abbrev Slot := Option Value

namespace Slot

open Stencil.Text

/-! ## 1. Cutting a list into slots -/

/-- What follows a token: blanks, then a comma, which is passed, or the end. -/
def afterToken? (cs : List Char) : Option (List Char) :=
  match trimStart cs with
  | [] => some []
  | ',' :: rest => some rest
  | _ => none

/-- A string in the given quotes, and the rest behind its slot. -/
def quotedToken? (quote : Char) : List Char → Option (List Char × List Char)
  | [] => none
  | c :: cs =>
    if c == quote then
      let inner := cs.takeWhile (· != quote)
      match cs.drop inner.length with
      | [] => none
      | _ :: rest => (afterToken? rest).map fun rest => (quote :: inner ++ [quote], rest)
    else none

/-- The end of a region behind its opening mark: the first closing mark behind which the slot ends.
`passed` is what stands before, in reverse order. -/
def regionEnd? (close passed : List Char) : List Char → Option (List Char × List Char)
  | [] => none
  | c :: cs =>
    let found :=
      if close.isPrefixOf (c :: cs) then afterToken? (cs.drop (close.length - 1)) else none
    match found with
    | some rest => some (passed.reverse ++ close, rest)
    | none => regionEnd? close (c :: passed) cs

/-- A region of depth 1, and the rest behind its slot. -/
def regionToken? (opener closer : Char) (cs : List Char) : Option (List Char × List Char) :=
  let start := [opener, '1', '%']
  if start.isPrefixOf cs then
    regionEnd? ['%', '1', closer] start.reverse (cs.drop start.length)
  else none

/-- Whatever stands up to the next comma, without the blanks at its end. -/
def bareToken (cs : List Char) : List Char × List Char :=
  let run := cs.takeWhile (· != ',')
  (trimEnd run, cs.drop (run.length + 1))

/-- The token of the first slot, and the rest behind it. -/
def cut (cs : List Char) : List Char × List Char :=
  let cs := trimStart cs
  let token? := (quotedToken? '\'' cs).or <| (quotedToken? '"' cs).or <|
    (regionToken? '{' '}' cs).or (regionToken? '[' ']' cs)
  token?.getD (bareToken cs)

/-! ## 2. Cutting makes progress -/

theorem afterToken?_length {cs rest : List Char} (h : afterToken? cs = some rest) :
    rest.length ≤ cs.length := by
  have shorter := (List.dropWhile_suffix isBlank (l := cs)).length_le
  unfold afterToken? trimStart at h
  split at h
  · cases h; simp
  · rename_i eq
    cases h
    rw [eq] at shorter
    simp only [List.length_cons] at shorter
    omega
  · cases h

theorem quotedToken?_length {quote : Char} {cs token rest : List Char}
    (h : quotedToken? quote cs = some (token, rest)) : rest.length < cs.length := by
  unfold quotedToken? at h
  split at h
  · cases h
  · rename_i c cs
    split at h
    · simp only at h
      split at h
      · cases h
      · rename_i first behind eq
        obtain ⟨r, after, same⟩ := Option.map_eq_some_iff.1 h
        cases same
        have bound := afterToken?_length after
        have := congrArg List.length eq
        simp only [List.length_drop, List.length_cons] at this ⊢
        omega
    · cases h

theorem regionEnd?_length {close passed cs token rest : List Char}
    (h : regionEnd? close passed cs = some (token, rest)) : rest.length < cs.length := by
  induction cs generalizing passed with
  | nil => simp [regionEnd?] at h
  | cons c cs ih =>
    unfold regionEnd? at h
    simp only at h
    split at h
    · rename_i found eq
      cases h
      split at eq
      · have bound := afterToken?_length eq
        simp only [List.length_drop, List.length_cons] at bound ⊢
        omega
      · cases eq
    · have := ih h
      simp only [List.length_cons]
      omega

theorem regionToken?_length {opener closer : Char} {cs token rest : List Char}
    (h : regionToken? opener closer cs = some (token, rest)) : rest.length < cs.length := by
  unfold regionToken? at h
  simp only at h
  split at h
  · have := regionEnd?_length h
    simp only [List.length_drop] at this
    omega
  · cases h

/-- **Each slot takes something** of a list that is not yet at its end. -/
theorem cut_length {cs : List Char} (nonempty : cs ≠ []) : (cut cs).2.length < cs.length := by
  have shorter := (List.dropWhile_suffix isBlank (l := cs)).length_le
  have positive : 0 < cs.length := List.length_pos_iff.2 nonempty
  unfold cut trimStart
  simp only
  generalize List.dropWhile isBlank cs = inner at shorter
  generalize whole : (quotedToken? '\'' inner).or _ = token?
  cases token? with
  | none =>
    simp only [Option.getD_none, bareToken, List.length_drop]
    omega
  | some found =>
    obtain ⟨token, rest⟩ := found
    simp only [Option.or_eq_some_iff] at whole
    have : rest.length < inner.length := by
      rcases whole with h | ⟨_, h | ⟨_, h | ⟨_, h⟩⟩⟩
      · exact quotedToken?_length h
      · exact quotedToken?_length h
      · exact regionToken?_length h
      · exact regionToken?_length h
    simp only [Option.getD_some]
    omega

/-! ## 3. The value of a slot -/

/-- A token that stands between two of the given quotes. -/
def isQuoted (quote : Char) (token : List Char) : Bool :=
  2 ≤ token.length && token.head? == some quote && token.getLast? == some quote

/-- The digits and points a numeral starts with are in order: digits with an optional point and
more digits, or a point and digits. -/
def isSignificand (cs : List Char) : Bool :=
  let whole := cs.takeWhile isDecimal
  match cs.dropWhile isDecimal with
  | [] => !whole.isEmpty
  | '.' :: fraction => fraction.all isDecimal && !(whole.isEmpty && fraction.isEmpty)
  | _ => false

/-- An exponent behind its `e`: digits with an optional sign. -/
def isExponent (cs : List Char) : Bool :=
  let ds := (Decimal.readSign cs).2
  !ds.isEmpty && ds.all isDecimal

/-- The form of a numeral: a sign, a significand and an exponent, the first and the last optional.
Digits of any script have this form, but only ASCII digits are read as a number. -/
def isNumeral (token : List Char) : Bool :=
  let cs := (Decimal.readSign token).2
  let head := cs.takeWhile fun c => c != 'e' && c != 'E'
  isSignificand head &&
    match cs.drop head.length with
    | [] => true
    | _ :: exponent => isExponent exponent

/-- The number that a numeral writes. -/
def number? (token : List Char) : Option Value :=
  if isNumeral token then
    (readInteger? token).map Value.ofInt <|> (Binary64.read? token).map Value.ofBinary64
  else none

/-- The value that a token writes. -/
def ofToken (token : List Char) : Slot :=
  let token := trim token
  if token.isEmpty then none
  else if isQuoted '\'' token || isQuoted '"' token then
    some (.ofChars (Depth.unmarkBrackets (token.drop 1).dropLast))
  else if ['{', '1', '%'].isPrefixOf token || ['[', '1', '%'].isPrefixOf token then
    let literal := Depth.unmarkBrackets token
    some ((Literal.read? literal).getD (.ofChars literal))
  else if token = "true".toList then some (.bool true)
  else if token = "false".toList then some (.bool false)
  else if token = "null".toList then some .null
  else some ((number? token).getD (.ofChars (Depth.unmarkBrackets token)))

/-! ## 4. The whole list -/

/-- The slots of a marked list.  Nothing behind a last comma is no slot; blanks there are an unset
one. -/
def readMarked (cs : List Char) : List Slot :=
  if _nonempty : cs = [] then []
  else ofToken (cut cs).1 :: readMarked (cut cs).2
termination_by cs.length
decreasing_by exact cut_length ‹_›

/-- The slots of an argument list; a blank list has none. -/
def readList (cs : List Char) : List Slot :=
  if (trim cs).isEmpty then [] else readMarked (Depth.markBrackets cs)

end Slot

end Stencil
