/-
# The pieces of a template

A template is literal text and placeholders in turn, and `pieces` takes it apart.  An opening brace
behind a backslash does not count: the search goes on right behind it, so a placeholder may begin
inside the braces passed over.

* `assemble_pieces`: put together as they are, the pieces give the template back.
* `placeholders` lists the placeholders among them, in order and with their places.
-/
import Stencil.Template.Placeholder
import Stencil.Text.Bytes

namespace Stencil

open Stencil.Text

/-- A placeholder at its place in a template. -/
structure Located extends Placeholder where
  /-- Where it starts, in bytes. -/
  start : Nat
  /-- Where it ends, in bytes. -/
  stop : Nat
  deriving Repr

/-- A piece of a template.  Literal text may be empty. -/
inductive Piece
  | literal (text : List Char)
  | placeholder (p : Located)
  deriving Repr

namespace Piece

/-- The placeholder that a piece is. -/
def placeholder? : Piece → Option Located
  | literal _ => none
  | placeholder p => some p

/-- The text of a piece, where `fill` gives the texts of placeholders. -/
def text (fill : Placeholder → List Char) : Piece → List Char
  | literal text => text
  | placeholder p => fill p.toPlaceholder

end Piece

namespace Template

/-! ## 1. Taking a template apart -/

/-- What was found, at its place. -/
def Found.located (f : Found) (start : Nat) : Located :=
  { f.placeholder with start, stop := start + byteLength f.matched }

/-- The pieces of the rest of a template; `passed` is what stands before it, in reverse order, and
`start` its length in bytes. -/
def piecesFrom (passed : List Char) (start : Nat) (cs : List Char) : List Piece :=
  match _found : next? cs with
  | none => [.literal cs]
  | some f =>
    let here := start + byteLength f.skipped
    if isEscaped (f.skipped ++ passed) then
      .literal (f.skipped.reverse ++ ['{']) :: piecesFrom ['{'] (here + 1) f.opened
    else
      .literal f.skipped.reverse :: .placeholder (f.located here) ::
        piecesFrom ['}'] (here + byteLength f.matched) f.rest
termination_by cs.length
decreasing_by
  · exact next?_length_opened _found
  · exact next?_length_rest _found

/-- The pieces of a template. -/
def pieces (cs : List Char) : List Piece := piecesFrom [] 0 cs

/-- The placeholders of a template in order. -/
def placeholders (cs : List Char) : List Located := (pieces cs).filterMap Piece.placeholder?

/-- Whether a template may hold placeholders at all: it has braces of both kinds. -/
def hasBraces (cs : List Char) : Bool := cs.contains '{' && cs.contains '}'

/-! ## 2. Putting it together -/

/-- The text of pieces, where `fill` gives the texts of placeholders. -/
def assemble (fill : Placeholder → List Char) (ps : List Piece) : List Char :=
  ps.flatMap (Piece.text fill)

theorem assemble_piecesFrom (passed : List Char) (start : Nat) (cs : List Char) :
    assemble (fun p => p.matched.toList) (piecesFrom passed start cs) = cs := by
  fun_induction piecesFrom passed start cs with
  | case1 passed start cs _ => simp [assemble, Piece.text]
  | case2 passed start cs f found here _ ih =>
    obtain ⟨whole, _⟩ := next?_eq_some found
    unfold assemble at ih ⊢
    rw [List.flatMap_cons, ih, whole]
    simp [Piece.text]
  | case3 passed start cs f found here _ ih =>
    obtain ⟨whole, closed⟩ := next?_eq_some found
    unfold assemble at ih ⊢
    rw [List.flatMap_cons, List.flatMap_cons, ih]
    simp only [Piece.text, Found.located, f.toList_matched_placeholder]
    rw [Found.matched_append_rest closed, whole]

/-- **Nothing of a template is lost**: with every placeholder as it is written, the pieces give it
back. -/
theorem assemble_pieces (cs : List Char) :
    assemble (fun p => p.matched.toList) (pieces cs) = cs := assemble_piecesFrom [] 0 cs

end Template

end Stencil
