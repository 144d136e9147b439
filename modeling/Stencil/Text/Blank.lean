/-
# Blank characters

A blank is a character with the Unicode property *White_Space*.  Blanks separate the parts of a
placeholder and surround the slots of an argument list; trimming takes them off the ends of a text.
JSON has a narrower class of its own (`Stencil.Json.isSpace`).
-/
import Stencil.Text.Ranges

namespace Stencil.Text

/-- The code points with the property *White_Space*. -/
def blankRanges : Ranges := [
  (0x9, 0xD), (0x20, 0x20), (0x85, 0x85), (0xA0, 0xA0), (0x1680, 0x1680), (0x2000, 0x200A),
  (0x2028, 0x2029), (0x202F, 0x202F), (0x205F, 0x205F), (0x3000, 0x3000)]

/-- A character with the property *White_Space*. -/
def isBlank (c : Char) : Bool := Ranges.covers blankRanges c.toNat

/-- A text without the blanks it starts with. -/
def trimStart (cs : List Char) : List Char := cs.dropWhile isBlank

/-- A text without the blanks it ends with. -/
def trimEnd (cs : List Char) : List Char := (cs.reverse.dropWhile isBlank).reverse

/-- A text without the blanks at its two ends. -/
def trim (cs : List Char) : List Char := trimEnd (trimStart cs)

theorem trimStart_suffix (cs : List Char) : trimStart cs <:+ cs := List.dropWhile_suffix isBlank

/-- Trimming gives nothing exactly when there are only blanks. -/
theorem trimStart_eq_nil_iff (cs : List Char) : trimStart cs = [] ↔ ∀ c ∈ cs, isBlank c := by
  induction cs with
  | nil => simp [trimStart]
  | cons c rest ih =>
    unfold trimStart at ih ⊢
    rw [List.dropWhile_cons]
    split
    · rename_i blank
      simp [ih, blank]
    · rename_i other
      simp [other]

end Stencil.Text
