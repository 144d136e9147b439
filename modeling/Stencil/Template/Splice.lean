/-
# Filling a template

A walk over a template that asks for the text of each placeholder and splices it in.  The walk keeps
the finished part of the text and the rest (`Cursor`); inserted text belongs to the finished part,
so the search for the next placeholder starts behind it.  Whether a brace is escaped is seen from
the character before it in the text as it stands, be it inserted or not.

There are two ways to splice.  `Copies.one` replaces the placeholder that was found and nothing
else.  `Copies.all` also replaces every later copy of its text, which then counts as template text
again: it is searched like the rest.  The first way ends within `ownSteps`, since each step passes
an opening brace of the template.  The second need not end: a text may bring new placeholders into
the rest.  So a walk has a number of steps, and `none` says that they did not suffice.
-/
import Stencil.Template.Placeholder

namespace Stencil

/-- Which copies of a placeholder are replaced. -/
inductive Copies
  /-- Only the one that was found. -/
  | one
  /-- Every later one too, unless it is escaped. -/
  | all
  deriving DecidableEq, Repr

/-- A template that is being filled: the finished part, in reverse order, and the rest. -/
structure Cursor where
  passed : List Char
  rest : List Char

/-- The whole text as it stands. -/
def Cursor.text (c : Cursor) : List Char := c.passed.reverse ++ c.rest

namespace Template

/-- A text with each copy of a placeholder replaced that is not escaped; an escaped copy is passed
as a whole.  `escaped` says whether a backslash stands in front of the text, and `passed` is the
finished part in reverse order. -/
def replaceCopies (needle replacement : List Char) (escaped : Bool) (passed : List Char) :
    List Char → List Char
  | [] => passed.reverse
  | c :: rest =>
    if needle.isPrefixOf (c :: rest) then
      let piece := if escaped then needle else replacement
      replaceCopies needle replacement false (piece.reverse ++ passed)
        (rest.drop (needle.length - 1))
    else replaceCopies needle replacement (c == '\\') (c :: passed) rest
termination_by cs => cs.length
decreasing_by all_goals simp only [List.length_drop, List.length_cons]; omega

/-- The rest of a template behind a placeholder that was replaced. -/
def restAfter (copies : Copies) (f : Found) (text : List Char) : List Char :=
  match copies with
  | .one => f.rest
  | .all => replaceCopies f.matched text false [] f.rest

variable {σ ε : Type}

/-- The text of a template with every placeholder replaced by the text that `fill` gives for it; the
first failure of `fill` ends the walk.  `none` if the steps do not suffice: each escaped brace and
each placeholder takes one, and the end one more. -/
def spliceFrom (copies : Copies) (fill : Placeholder → StateM σ (Except ε String)) :
    (steps : Nat) → Cursor → StateM σ (Option (Except ε (List Char)))
  | 0, _ => pure none
  | steps + 1, cursor =>
    match next? cursor.rest with
    | none => pure (some (.ok cursor.text))
    | some f =>
      let passed := f.skipped ++ cursor.passed
      if isEscaped passed then spliceFrom copies fill steps ⟨'{' :: passed, f.opened⟩
      else do
        match ← fill f.placeholder with
        | .error e => pure (some (.error e))
        | .ok text =>
          let text := text.toList
          spliceFrom copies fill steps ⟨text.reverse ++ passed, restAfter copies f text⟩

/-- The steps that a template itself takes: one for each opening brace, at most, and one for the
end. -/
def ownSteps (template : String) : Nat := template.toList.count '{' + 1

/-- A template filled by `fill`, in a number of steps. -/
def splice (copies : Copies) (fill : Placeholder → StateM σ (Except ε String)) (steps : Nat)
    (template : String) : StateM σ (Option (Except ε String)) := do
  let result ← spliceFrom copies fill steps ⟨[], template.toList⟩
  pure (result.map fun outcome => outcome.map String.ofList)

end Template

end Stencil
