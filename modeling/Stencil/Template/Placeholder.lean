/-
# Placeholders

A placeholder with its parts taken apart, and the search for the next one in a text.  The text is
searched from left to right for the first opening brace at which the grammar recognises a
placeholder.  Whether that brace is escaped is left to the caller, who knows what stands before the
text.

What is found divides the text: what was passed, the placeholder, the rest (`next?_eq_some`).
-/
import Stencil.Chain
import Stencil.Template.Grammar

namespace Stencil

/-- A placeholder of a template. -/
structure Placeholder where
  /-- The name of its value; empty for `{}`. -/
  name : String
  /-- Written in front of a result that is not empty. -/
  leading : String
  /-- Written behind a result that is not empty. -/
  trailing : String
  /-- The filters in the order in which they are written. -/
  chain : List Call
  /-- The whole placeholder, braces included. -/
  matched : String
  deriving Repr

namespace Template

/-! ## 1. What is found -/

/-- A placeholder found in a text: what stands before it, in reverse order, its parts, the text
behind its opening brace, and the rest behind its closing brace. -/
structure Found where
  skipped : List Char
  parts : Grammar.Parts
  opened : List Char
  rest : List Char

/-- The whole placeholder, braces included. -/
def Found.matched (f : Found) : List Char :=
  '{' :: f.opened.take (f.opened.length - f.rest.length)

/-- The placeholder that was found. -/
def Found.placeholder (f : Found) : Placeholder where
  name := String.ofList f.parts.name
  leading := String.ofList f.parts.leading
  trailing := String.ofList f.parts.trailing
  chain := Call.readChain f.parts.filters
  matched := String.ofList f.matched

theorem Found.toList_matched_placeholder (f : Found) :
    f.placeholder.matched.toList = f.matched := String.toList_ofList

/-! ## 2. The next placeholder -/

/-- The first placeholder of a text; `skipped` is what was passed before, in reverse order. -/
def nextFrom (skipped : List Char) : List Char → Option Found
  | [] => none
  | c :: cs =>
    match Grammar.recognise? (c :: cs) with
    | some (parts, rest) => some ⟨skipped, parts, cs, rest⟩
    | none => nextFrom (c :: skipped) cs

/-- The first placeholder of a text, escaped or not. -/
def next? (cs : List Char) : Option Found := nextFrom [] cs

/-- The text that ends here, given in reverse order, ends with a backslash. -/
def isEscaped (passed : List Char) : Bool := passed.head? == some '\\'

theorem nextFrom_eq_some {skipped cs : List Char} {f : Found} (h : nextFrom skipped cs = some f) :
    skipped.reverse ++ cs = f.skipped.reverse ++ '{' :: f.opened ∧ '}' :: f.rest <:+ f.opened := by
  induction cs generalizing skipped with
  | nil => simp [nextFrom] at h
  | cons c cs ih =>
    unfold nextFrom at h
    split at h
    · rename_i recognised
      cases h
      obtain ⟨inner, eq⟩ := Grammar.recognise?_eq_some recognised
      cases eq
      exact ⟨rfl, inner, rfl⟩
    · obtain ⟨whole, closed⟩ := ih h
      exact ⟨by simpa using whole, closed⟩

/-- **What is found divides the text.** -/
theorem next?_eq_some {cs : List Char} {f : Found} (h : next? cs = some f) :
    cs = f.skipped.reverse ++ '{' :: f.opened ∧ '}' :: f.rest <:+ f.opened := nextFrom_eq_some h

theorem Found.matched_append_rest {f : Found} (h : '}' :: f.rest <:+ f.opened) :
    f.matched ++ f.rest = '{' :: f.opened := by
  obtain ⟨inner, eq⟩ := h
  unfold Found.matched
  rw [← eq, List.append_cons inner '}' f.rest, List.length_append, Nat.add_sub_cancel,
    List.take_left, List.cons_append]

theorem next?_length_opened {cs : List Char} {f : Found} (h : next? cs = some f) :
    f.opened.length < cs.length := by
  have whole := congrArg List.length (next?_eq_some h).1
  simp only [List.length_append, List.length_cons] at whole
  omega

theorem next?_length_rest {cs : List Char} {f : Found} (h : next? cs = some f) :
    f.rest.length < cs.length := by
  have inside := (next?_eq_some h).2.length_le
  have := next?_length_opened h
  simp only [List.length_cons] at inside
  omega

end Template

end Stencil
