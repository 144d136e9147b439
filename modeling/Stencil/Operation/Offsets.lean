/-
# Counts and offsets

Operations read their counts and offsets from the slots of a call: the number in the slot, cut off
to a whole one, within 64 bits.  A slice is given by two offsets; a negative one counts from the
end, and both are clamped to the length.
-/
import Stencil.Filter.Arguments
import Stencil.Filter.Fault

namespace Stencil.Operation

/-- The whole number in a slot. -/
def integer? (args : Arguments) (index : Nat) : Option Int :=
  ((args.slot? index).bind Value.toBinary64?).map Binary64.toInteger

/-- The text of a slot. -/
def text? (args : Arguments) (index : Nat) : Option (List Char) :=
  (args.slot? index).map fun v => v.render.toList

theorem text?_of_slot? {args : Arguments} {index : Nat} {v : Value}
    (h : args.slot? index = some v) : text? args index = some v.render.toList := by
  rw [text?, h, Option.map_some]

/-- A count in a slot, which must be there and must not be negative. -/
def count (args : Arguments) (index : Nat) (what : Count) : Except Fault Nat :=
  match integer? args index with
  | some n => if 0 ≤ n then .ok n.toNat else .error (.countNegative what n)
  | none => .error (.countMissing what)

/-- A count is given exactly by a number that is not negative. -/
theorem count_eq_ok_iff {args : Arguments} {index : Nat} {what : Count} {n : Nat} :
    count args index what = .ok n ↔ integer? args index = some (n : Int) := by
  unfold count
  split
  · rename_i i found
    rw [found, Option.some_inj]
    split
    · rw [Except.ok.injEq]
      omega
    · simp only [reduceCtorEq, false_iff]
      omega
  · rename_i missing
    simp [missing]

/-- An offset into something of a given length. -/
def offset (length : Nat) (i : Int) : Nat :=
  if i < 0 then (length + i).toNat else min i.toNat length

/-- Where a slice starts and ends; it never ends before it starts. -/
def span (length : Nat) (start stop : Option Int) : Nat × Nat :=
  let first := (start.map (offset length)).getD 0
  let last := (stop.map (offset length)).getD length
  (first, max last first)

/-- The items between two offsets. -/
def slice {α : Type} (items : List α) (start stop : Option Int) : List α :=
  let (first, last) := span items.length start stop
  (items.drop first).take (last - first)

end Stencil.Operation
