/-
# Depth marks

Brackets annotated with how deep they nest, so that one look at the text tells where a region ends:

    {a:[1,2],b:{c:3}}
    {1%a:[1%1,2%1],b:{2%c:3%2}%1}

An opener at depth `d` is followed by `d%`, the closer of that depth stands behind `%d`.  A region
of depth 1 therefore ends at the first `%1` and closer behind its opener, whatever it holds.

Marking never refuses a text.  A closer without an opener stays as it is, an opener without a closer
is marked all the same, and a pair of delimiters of which one does not occur is left alone.
Unmarking takes marks out by their form and not by their place, so half a pair is restored too, and
so is a mark that was in the text before.
-/
import Stencil.Text.Digit
import Stencil.Text.Search

namespace Stencil

/-- The two texts that open and close a region. -/
structure Delimiters where
  opener : List Char
  closer : List Char
  deriving DecidableEq, Repr

namespace Depth

open Stencil.Text

/-- The delimiters of object and list literals. -/
def brackets : List Delimiters := [⟨['{'], ['}']⟩, ⟨['['], [']']⟩]

/-! ## 1. Marking -/

/-- A text with the marks of one pair of delimiters, when `depth` regions are open in front of it.
Where both delimiters fit, it is the opener. -/
def mark (d : Delimiters) (depth : Nat) : List Char → List Char
  | [] => []
  | c :: rest =>
    if d.opener.isPrefixOf (c :: rest) then
      d.opener ++ decimalDigits (depth + 1) ++
        '%' :: mark d (depth + 1) (rest.drop (d.opener.length - 1))
    else if d.closer.isPrefixOf (c :: rest) then
      (if depth = 0 then [] else '%' :: decimalDigits depth) ++
        d.closer ++ mark d (depth - 1) (rest.drop (d.closer.length - 1))
    else c :: mark d depth rest
termination_by cs => cs.length
decreasing_by all_goals simp only [List.length_drop, List.length_cons]; omega

/-- A pair is marked in texts where both of its delimiters occur. -/
def applies (d : Delimiters) (cs : List Char) : Bool :=
  !d.opener.isEmpty && !d.closer.isEmpty && occurs d.opener cs && occurs d.closer cs

/-- The marks of one pair, where it applies. -/
def markPair (cs : List Char) (d : Delimiters) : List Char :=
  if applies d cs then mark d 0 cs else cs

/-- The marks of several pairs, one after another. -/
def markPairs (pairs : List Delimiters) (cs : List Char) : List Char := pairs.foldl markPair cs

/-! ## 2. The form of a mark -/

/-- The length of the opener and its mark that a text starts with. -/
def openMark? (opener cs : List Char) : Option Nat :=
  if opener.isPrefixOf cs then
    let digits := (cs.drop opener.length).takeWhile isDecimal
    if digits.isEmpty || (cs.drop (opener.length + digits.length)).head? != some '%' then none
    else some (opener.length + digits.length + 1)
  else none

/-- The greatest number of digits, up to a bound, behind which the closer stands. -/
def digitsBefore? (closer cs : List Char) : (bound : Nat) → Option Nat
  | 0 => none
  | n + 1 =>
    if closer.isPrefixOf (cs.drop (n + 1)) then some (n + 1) else digitsBefore? closer cs n

/-- The length of the mark and its closer that a text starts with.  A closer may itself start with
digits, so not all digits behind the percent sign need belong to the mark. -/
def closeMark? (closer : List Char) : List Char → Option Nat
  | '%' :: cs =>
    (digitsBefore? closer cs (cs.takeWhile isDecimal).length).map fun n => 1 + n + closer.length
  | _ => none

/-! ## 3. Unmarking -/

/-- A text with each leftmost piece that `size?` recognises replaced. -/
def substitute (size? : List Char → Option Nat) (replacement : List Char → List Char) :
    List Char → List Char
  | [] => []
  | c :: rest =>
    match size? (c :: rest) with
    | some n => replacement ((c :: rest).take n) ++ substitute size? replacement (rest.drop (n - 1))
    | none => c :: substitute size? replacement rest
termination_by cs => cs.length
decreasing_by all_goals simp only [List.length_drop, List.length_cons]; omega

/-- A character of a name in a replacement. -/
def isNameChar (c : Char) : Bool := c.isAlphanum || c == '_'

/-- What a name in a replacement stands for: the number zero for the whole piece that is replaced,
anything else for nothing. -/
def referent (piece name : List Char) : List Char :=
  let digits := match name with
    | '+' :: digits => digits
    | digits => digits
  if !digits.isEmpty && digits.all (· == '0') then piece else []

/-- A replacement with its references resolved.  A dollar sign with a name, bare or in braces,
stands for what the name refers to, and two dollar signs stand for one. -/
def expand (piece : List Char) : List Char → List Char
  | [] => []
  | '$' :: '$' :: rest => '$' :: expand piece rest
  | '$' :: '{' :: rest =>
    if rest.contains '}' then
      referent piece (rest.takeWhile (· != '}')) ++
        expand piece (rest.drop ((rest.takeWhile (· != '}')).length + 1))
    else '$' :: '{' :: expand piece rest
  | '$' :: rest =>
    let name := rest.takeWhile isNameChar
    if name.isEmpty then '$' :: expand piece rest
    else referent piece name ++ expand piece (rest.drop name.length)
  | c :: rest => c :: expand piece rest
termination_by cs => cs.length
decreasing_by all_goals simp only [List.length_drop, List.length_cons]; omega

/-- A text without the marks of one pair.  What a mark leaves behind is its delimiter, read as a
replacement, so a dollar sign in a delimiter may refer to the mark. -/
def unmarkPair (cs : List Char) (d : Delimiters) : List Char :=
  if d.opener.isEmpty || d.closer.isEmpty then cs
  else
    substitute (closeMark? d.closer) (expand · d.closer)
      (substitute (openMark? d.opener) (expand · d.opener) cs)

/-- A text without the marks of several pairs. -/
def unmarkPairs (pairs : List Delimiters) (cs : List Char) : List Char :=
  pairs.foldl unmarkPair cs

/-! ## 4. Brackets -/

/-- A text with the marks of object and list literals. -/
def markBrackets (cs : List Char) : List Char := markPairs brackets cs

/-- A text without them. -/
def unmarkBrackets (cs : List Char) : List Char := unmarkPairs brackets cs

end Depth

end Stencil
