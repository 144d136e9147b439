/-
# Ranges of code points

A character class of Unicode is a table of ranges of code points in increasing order.  Looking a
character up walks the table and stops at the first range that lies beyond it; `covers_iff` says
that on a table in increasing order this is membership in some range.
-/

namespace Stencil.Text

/-- Inclusive ranges of code points, in increasing order. -/
abbrev Ranges := List (Nat × Nat)

/-- Whether a code point lies in one of the ranges. -/
def Ranges.covers : Ranges → Nat → Bool
  | [], _ => false
  | (first, last) :: rest, n =>
    if n < first then false else n ≤ last || Ranges.covers rest n

/-- Each range ends before the next one starts. -/
def Ranges.Ordered (table : Ranges) : Prop :=
  table.Pairwise fun a b => a.2 < b.1

/-- **Looking up is membership** in a table of ordered, non-empty ranges. -/
theorem Ranges.covers_iff {table : Ranges} (ordered : Ranges.Ordered table)
    (proper : ∀ r ∈ table, r.1 ≤ r.2) (n : Nat) :
    Ranges.covers table n = true ↔ ∃ r ∈ table, r.1 ≤ n ∧ n ≤ r.2 := by
  induction table with
  | nil => simp [Ranges.covers]
  | cons r rest ih =>
    obtain ⟨first, last⟩ := r
    have ordered' := List.pairwise_cons.1 ordered
    have proper' : ∀ r ∈ rest, r.1 ≤ r.2 := fun r h => proper r (List.mem_cons_of_mem _ h)
    have step := ih ordered'.2 proper'
    unfold Ranges.covers
    split
    · rename_i below
      simp only [Bool.false_eq_true, false_iff]
      rintro ⟨r, mem, low, high⟩
      rcases List.mem_cons.1 mem with rfl | mem
      · exact absurd low (by simpa using below)
      · have beyond : last < r.1 := ordered'.1 r mem
        have filled : first ≤ last := proper (first, last) (List.mem_cons_self ..)
        omega
    · rename_i reached
      simp only [Bool.or_eq_true, decide_eq_true_eq, step, List.mem_cons]
      constructor
      · rintro (high | ⟨r, mem, inside⟩)
        · exact ⟨(first, last), Or.inl rfl, by omega, high⟩
        · exact ⟨r, Or.inr mem, inside⟩
      · rintro ⟨r, rfl | mem, low, high⟩
        · exact Or.inl high
        · exact Or.inr ⟨r, mem, low, high⟩

end Stencil.Text
