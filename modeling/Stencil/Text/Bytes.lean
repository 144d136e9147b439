/-
# Lengths in bytes

Positions in a template are counted in bytes of its UTF-8 form, and so is the size limit of
generated text.  `byteLength` is that measure on lists of characters; it is additive, so the
position after a text is the sum of the lengths of its parts.
-/

namespace Stencil.Text

/-- The number of bytes of a text in UTF-8. -/
def byteLength (cs : List Char) : Nat := cs.foldl (fun n c => n + c.utf8Size) 0

theorem foldl_utf8Size (n : Nat) (cs : List Char) :
    cs.foldl (fun n c => n + c.utf8Size) n = n + byteLength cs := by
  unfold byteLength
  induction cs generalizing n with
  | nil => rfl
  | cons c rest ih =>
    simp only [List.foldl_cons]
    rw [ih (n + c.utf8Size), ih (0 + c.utf8Size)]
    omega

@[simp] theorem byteLength_nil : byteLength [] = 0 := rfl

@[simp] theorem byteLength_cons (c : Char) (cs : List Char) :
    byteLength (c :: cs) = c.utf8Size + byteLength cs := by
  have h := foldl_utf8Size c.utf8Size cs
  simpa [byteLength] using h

@[simp] theorem byteLength_append (xs ys : List Char) :
    byteLength (xs ++ ys) = byteLength xs + byteLength ys := by
  induction xs with
  | nil => simp
  | cons c rest ih => simp [ih, Nat.add_assoc]

@[simp] theorem byteLength_reverse (cs : List Char) : byteLength cs.reverse = byteLength cs := by
  induction cs with
  | nil => rfl
  | cons c rest ih => simp [ih, Nat.add_comm]

/-- A character takes a byte or more. -/
theorem length_le_byteLength (cs : List Char) : cs.length ≤ byteLength cs := by
  induction cs with
  | nil => exact Nat.le_refl 0
  | cons c rest ih =>
    have := c.utf8Size_pos
    simp only [List.length_cons, byteLength_cons]
    omega

/-- There are as many bytes as characters if each character takes one. -/
theorem byteLength_eq_length_iff {cs : List Char} :
    byteLength cs = cs.length ↔ ∀ c ∈ cs, c.utf8Size = 1 := by
  induction cs with
  | nil => simp
  | cons c rest ih =>
    have := c.utf8Size_pos
    have := length_le_byteLength rest
    simp only [byteLength_cons, List.length_cons, List.forall_mem_cons, ← ih]
    omega

theorem byteLength_flatten_replicate (n : Nat) (cs : List Char) :
    byteLength (List.replicate n cs).flatten = byteLength cs * n := by
  induction n with
  | zero => rfl
  | succ n ih =>
    rw [List.replicate_succ, List.flatten_cons, byteLength_append, ih, Nat.mul_succ, Nat.add_comm]

end Stencil.Text
