/-
# Chains of filter calls

The filters of a placeholder stand one after another, each behind a bar:

    | add(2) | upper |  | pad_end(8, '|')

A bar inside quotes or parentheses does not separate.  Empty segments are dropped.  A segment is a
call: its name up to the first parenthesis, its arguments from there to the last closing one; a
segment without such a pair is all name.
-/
import Stencil.Argument.Slot

namespace Stencil

/-- A filter call as it is written: the name of the filter and the slots of its arguments. -/
structure Call where
  name : String
  args : List Slot := []
  deriving Repr

namespace Call

open Stencil.Text

/-! ## 1. Segments -/

/-- Where a walk along a chain stands: in a quoted string, and how many parentheses are open. -/
structure Nesting where
  quote : Option Char := none
  depth : Nat := 0

/-- The nesting behind one more character.  Inside quotes only the same quote matters, and a
closing parenthesis without an opening one does not count. -/
def Nesting.step (n : Nesting) (c : Char) : Nesting :=
  match n.quote with
  | some q => if c == q then { n with quote := none } else n
  | none =>
    if c == '\'' || c == '"' then { n with quote := some c }
    else if c == '(' then { n with depth := n.depth + 1 }
    else if c == ')' then { n with depth := n.depth - 1 }
    else n

/-- A bar separates here. -/
def Nesting.isOpen (n : Nesting) : Bool := n.quote.isNone && n.depth == 0

/-- The segments of a chain; `segment` is the current one in reverse order. -/
def segmentsFrom (n : Nesting) (segment : List Char) : List Char → List (List Char)
  | [] => [segment.reverse]
  | c :: rest =>
    if c == '|' && n.isOpen then segment.reverse :: segmentsFrom n [] rest
    else segmentsFrom (n.step c) (c :: segment) rest

/-- The segments of a chain. -/
def segments (cs : List Char) : List (List Char) := segmentsFrom {} [] cs

/-! ## 2. Calls -/

/-- The call that a segment writes. -/
def ofSegment (segment : List Char) : Call :=
  let name := segment.takeWhile (· != '(')
  let rest := segment.drop (name.length + 1)
  if rest.contains ')' then
    let inner := ((rest.reverse.dropWhile (· != ')')).drop 1).reverse
    ⟨String.ofList (trim name), Slot.readList inner⟩
  else ⟨String.ofList segment, []⟩

/-- The calls of a chain, which may start with a bar. -/
def readChain (cs : List Char) : List Call :=
  let cs := trim cs
  let cs := if cs.head? == some '|' then cs.drop 1 else cs
  ((segments cs).map trim).filter (!·.isEmpty) |>.map ofSegment

end Call

end Stencil
