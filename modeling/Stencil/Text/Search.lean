/-
# Occurrences of a text in a text

Leftmost, non-overlapping occurrences of a non-empty text (`needle`): whether there is one, the
parts between them, and the text with all of them replaced.  Each function walks its text once and
keeps what it has passed in reverse order.
-/

namespace Stencil.Text

/-- The needle occurs somewhere in the text. -/
def occurs (needle : List Char) : List Char → Bool
  | [] => needle.isEmpty
  | c :: rest => needle.isPrefixOf (c :: rest) || occurs needle rest

/-- The parts of a text between the occurrences of a needle; `part` is the current one in reverse
order, `parts` are the finished ones, last first. -/
def splitFrom (needle part : List Char) (parts : List (List Char)) :
    List Char → List (List Char)
  | [] => (part.reverse :: parts).reverse
  | c :: rest =>
    if needle.isPrefixOf (c :: rest) then
      splitFrom needle [] (part.reverse :: parts) (rest.drop (needle.length - 1))
    else splitFrom needle (c :: part) parts rest
termination_by cs => cs.length
decreasing_by all_goals simp only [List.length_drop, List.length_cons]; omega

/-- The parts of a text between the occurrences of a non-empty needle. -/
def splitOn (needle cs : List Char) : List (List Char) := splitFrom needle [] [] cs

/-- A text with each occurrence of a needle replaced; `passed` is the finished part in reverse
order. -/
def replaceFrom (needle replacement passed : List Char) : List Char → List Char
  | [] => passed.reverse
  | c :: rest =>
    if needle.isPrefixOf (c :: rest) then
      replaceFrom needle replacement (replacement.reverse ++ passed)
        (rest.drop (needle.length - 1))
    else replaceFrom needle replacement (c :: passed) rest
termination_by cs => cs.length
decreasing_by all_goals simp only [List.length_drop, List.length_cons]; omega

/-- A text with each occurrence of a non-empty needle replaced. -/
def replaceAll (needle replacement cs : List Char) : List Char :=
  replaceFrom needle replacement [] cs

end Stencil.Text
