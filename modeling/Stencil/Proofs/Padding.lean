/-
# What padding adds

A text is padded to a width by writing a fill again and again until the width is reached; the last
round of the fill is cut off where it ends.

* `getElem?_cycle`: the added characters go round the fill;
* `apply_pad_of_width`: a width within the limit is reached, at either end of the text;
* `padded_exactly`: a padded text is as wide as asked for, or as wide as the text where that is
  wider, and padding it again changes nothing.
-/
import Stencil.Proofs.Integral
import Stencil.Proofs.OutputLimit

namespace Stencil.Operation

/-! ## 1. Going round the fill -/

theorem getElem?_rounds (fill : List Char) {rounds i : Nat} (inside : i < rounds * fill.length) :
    (List.replicate rounds fill).flatten[i]? = fill[i % fill.length]? := by
  induction rounds generalizing i with
  | zero => simp at inside
  | succ rounds ih =>
    rw [List.replicate_succ, List.flatten_cons]
    by_cases first : i < fill.length
    · rw [List.getElem?_append_left first, Nat.mod_eq_of_lt first]
    · have later : fill.length ≤ i := Nat.le_of_not_lt first
      rw [Nat.succ_mul] at inside
      rw [List.getElem?_append_right later, ih (by omega), Nat.mod_eq_sub_mod later]

/-- **Each added character is that of the fill** at its position, counted round and round. -/
theorem getElem?_cycle {fill : List Char} (nonempty : fill ≠ []) {n i : Nat} (inside : i < n) :
    (cycle fill n)[i]? = fill[i % fill.length]? := by
  have enough : n < (n / fill.length + 1) * fill.length := by
    rw [Nat.mul_comm]
    exact Nat.lt_mul_div_succ n (List.length_pos_of_ne_nil nonempty)
  rw [cycle, if_neg (by simpa using nonempty), List.getElem?_take_of_lt inside,
    getElem?_rounds fill (by omega)]

/-! ## 2. Widths that are reached -/

/-- An integer in a slot is the number of that slot, if it is small. -/
theorem integer?_of_slot? {args : Arguments} {index : Nat} {i : Int}
    (given : args.slot? index = some (.ofInt i)) (small : i.natAbs < 2 ^ 53) :
    integer? args index = some i := by
  simp only [integer?, given, Option.bind_some, Value.ofInt, Value.toBinary64?, Number.toBinary64,
    Option.map_some, Binary64.toInteger_ofInt small]

/-- **A width within the limit is reached.** -/
theorem apply_pad_of_width (s : String) {args : Arguments} {width : Nat}
    (given : integer? args 0 = some (width : Int)) (within : width ≤ outputLimit) :
    let pad := cycle (fillOf args) (width - s.toList.length)
    apply "pad_start" (.string s) args = .ok (.ofChars (pad ++ s.toList)) ∧
      apply "pad_end" (.string s) args = .ok (.ofChars (s.toList ++ pad)) := by
  rw [apply_pad_start, apply_pad_end]
  exact ⟨map_padding_eq_ok_iff.2 ⟨width, given, within, rfl⟩,
    map_padding_eq_ok_iff.2 ⟨width, given, within, rfl⟩⟩

/-- A text that has the width already is not changed. -/
theorem apply_pad_of_wide {cs : List Char} {args : Arguments} {width : Nat}
    (given : integer? args 0 = some (width : Int)) (within : width ≤ outputLimit)
    (wide : width ≤ cs.length) {name : String} (pads : name ∈ ["pad_start", "pad_end"]) :
    apply name (.ofChars cs) args = .ok (.ofChars cs) := by
  obtain ⟨atStart, atEnd⟩ := apply_pad_of_width (String.ofList cs) given within
  rw [String.toList_ofList, Nat.sub_eq_zero_of_le wide, cycle_zero] at atStart atEnd
  simp only [List.mem_cons, List.not_mem_nil, or_false] at pads
  rcases pads with rfl | rfl
  · exact atStart
  · rwa [List.append_nil] at atEnd

/-- **Padding is exact.**  For a width from zero to the limit and a fill that is not empty, padding
succeeds at either end.  The text keeps its place at the other end, and with what is added it has
the width asked for, if it was not wider before.  The added characters go round the fill, and once
padded a text is not changed by padding it again with the same arguments, at either end. -/
theorem padded_exactly (s : String) {args : Arguments} {width : Int}
    (given : args.slot? 0 = some (.ofInt width)) (nonneg : 0 ≤ width)
    (within : width ≤ outputLimit) (filled : fillOf args ≠ []) :
    ∃ pad : List Char,
      apply "pad_start" (.string s) args = .ok (.ofChars (pad ++ s.toList)) ∧
        apply "pad_end" (.string s) args = .ok (.ofChars (s.toList ++ pad)) ∧
        (pad.length + s.length : Int) = max width s.length ∧
        (∀ i < pad.length, pad[i]? = (fillOf args)[i % (fillOf args).length]?) ∧
        ∀ name ∈ ["pad_start", "pad_end"], ∀ padded ∈ [pad ++ s.toList, s.toList ++ pad],
          apply name (.ofChars padded) args = .ok (.ofChars padded) := by
  have limit : outputLimit = 2 ^ 20 := rfl
  obtain ⟨n, rfl⟩ := Int.eq_ofNat_of_zero_le nonneg
  have within' : n ≤ outputLimit := by exact_mod_cast within
  have given' : integer? args 0 = some (n : Int) := integer?_of_slot? given (by omega)
  obtain ⟨atStart, atEnd⟩ := apply_pad_of_width s given' within'
  have added := length_cycle filled (n - s.toList.length)
  refine ⟨cycle (fillOf args) (n - s.toList.length), atStart, atEnd, ?_, ?_, ?_⟩
  · rw [added, ← String.length_toList]
    omega
  · intro i inside
    exact getElem?_cycle filled (added ▸ inside)
  · intro name pads padded either
    refine apply_pad_of_wide given' within' ?_ pads
    simp only [List.mem_cons, List.not_mem_nil, or_false] at either
    rcases either with rfl | rfl
    · rw [List.length_append]
      omega
    · rw [List.length_append]
      omega

/-- A fill that is cut off in its second round, around a character of two bytes. -/
theorem padded_exactly_cut :
    let args : Arguments := { positional := [some (.ofInt 6), some (.string "abc")] }
    args.slot? 0 = some (.ofInt 6) ∧ (6 : Int) ≤ outputLimit ∧ fillOf args ≠ [] ∧
      ∃ pad : List Char,
        apply "pad_start" (.string "é") args = .ok (.ofChars (pad ++ ['é'])) ∧
          apply "pad_end" (.string "é") args = .ok (.ofChars ('é' :: pad)) ∧ pad.length = 5 ∧
          pad[4]? = some 'b' ∧
          apply "pad_end" (.ofChars (pad ++ ['é'])) args = .ok (.ofChars (pad ++ ['é'])) := by
  intro args
  have given : args.slot? 0 = some (.ofInt 6) := rfl
  have within : (6 : Int) ≤ outputLimit := by decide
  have filled : fillOf args ≠ [] := by decide
  obtain ⟨pad, atStart, atEnd, width, rounds, again⟩ :=
    padded_exactly "é" given (by decide) within filled
  have length : pad.length = 5 := by
    have one : "é".length = 1 := by decide
    omega
  have fifth : (fillOf args)[4 % (fillOf args).length]? = some 'b' := by decide
  refine ⟨given, within, filled, pad, atStart, atEnd, length, ?_, ?_⟩
  · exact (rounds 4 (by omega)).trans fifth
  · exact again "pad_end" (by simp) _ (by simp)

end Stencil.Operation
