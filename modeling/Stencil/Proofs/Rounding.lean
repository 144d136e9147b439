/-
# Integers through the operations on numbers

Rounding, also downwards and upwards, and the absolute value work on the double nearest to a number.
The double of an integer is whole, so rounding leaves it as it is, but it need not be the integer.

* `wholeBy_ofInt`: no way to a whole number changes the double of an integer;
* `exists_shown`: that double, as a value, is shown as its shortest integer;
* `applyAll_roundings`: one rounding makes that value of an integer, and further ones keep it;
* `rounded_integer_iff`: so an integer is kept exactly if it is shortest, as all are up to `2 ^ 53`.
-/
import Stencil.Operation.Table
import Stencil.Proofs.Integers
import Stencil.Proofs.Shortest

namespace Stencil

open Stencil.Text Stencil.Binary64

/-! ## 1. Doubles of integers -/

namespace Binary64

/-- A way of making a number whole that leaves whole numbers as they are keeps the double of an
integer. -/
theorem wholeBy_ofInt {whole : Nat → Nat → Bool → Nat}
    (exact' : ∀ w d negative, 0 < d → whole (w * d) d negative = w) {i : Int}
    (fits : i.natAbs < 2 ^ 64) : wholeBy whole (ofInt i) = ofInt i := by
  obtain ⟨m, e, w, d, double, quotient, positive, -⟩ := ofRatio_one_whole fits
  rw [ofInt, (double _).1, wholeBy, quotient]
  simp only [exact' w d _ positive, (double _).2]

theorem round_ofInt {i : Int} (fits : i.natAbs < 2 ^ 64) : (ofInt i).round = ofInt i := by
  refine wholeBy_ofInt (fun w d _ positive => ?_) fits
  rw [Nat.mul_mod_left, if_neg (by omega), Nat.mul_div_cancel w positive]

theorem floor_ofInt {i : Int} (fits : i.natAbs < 2 ^ 64) : (ofInt i).floor = ofInt i := by
  refine wholeBy_ofInt (fun w d _ positive => ?_) fits
  rw [Nat.mul_mod_left, if_neg (by simp), Nat.mul_div_cancel w positive]

theorem ceil_ofInt {i : Int} (fits : i.natAbs < 2 ^ 64) : (ofInt i).ceil = ofInt i := by
  refine wholeBy_ofInt (fun w d _ positive => ?_) fits
  rw [Nat.mul_mod_left, if_neg (by simp), Nat.mul_div_cancel w positive]

theorem abs_ofInt {i : Int} (fits : i.natAbs < 2 ^ 64) : (ofInt i).abs = ofInt i.natAbs := by
  obtain ⟨m, e, w, d, double, -⟩ := ofRatio_one_whole fits
  have positive : decide ((i.natAbs : Int) < 0) = false := by simp
  rw [ofInt, ofInt, (double _).1, positive, Int.natAbs_natCast, (double _).1]
  rfl

end Binary64

/-! ## 2. What is shown -/

/-- **The double of an integer is shown as its shortest integer**, with the sign of the integer. -/
theorem exists_shown {n : Nat} (fits : n < 2 ^ 64) :
    ∃ a, Alike a n ∧ Shortest a ∧ ∀ i : Int, i.natAbs = n →
      (Value.ofBinary64 (Binary64.ofInt i)).render =
        String.ofList (signText (i < 0) ++ decimalDigits a) := by
  have limit : Value.integerLimit < 2 ^ 53 := by decide
  rcases Nat.lt_or_ge n Value.integerLimit with small | large
  · refine ⟨n, rfl, shortest_of_lt (Nat.lt_trans small limit), ?_⟩
    rintro i rfl
    rw [Value.ofBinary64_ofInt fits, if_pos small]
    rfl
  · have large' : 2 ^ 52 ≤ n := Nat.le_trans (by decide) large
    have bits : n.log2 < 64 := (Nat.log2_lt (by omega)).2 fits
    obtain ⟨m, e, whole, exponent, double⟩ := exists_whole large' (by omega)
    obtain ⟨a, near, shortest, text⟩ := display_whole whole (by omega)
    refine ⟨a, (alike_iff whole (double false) a).2 near, shortest, ?_⟩
    rintro i rfl
    rw [Value.ofBinary64_ofInt fits, if_neg (Nat.not_lt.2 large)]
    have beyond : (Binary64.ofInt i).magnitudeBelow renderLimit = false := by
      have value : renderLimit ≤ m * 2 ^ e := Nat.le_trans (by decide : renderLimit ≤ 2 ^ 52)
        (Nat.le_trans whole.normal (Nat.le_mul_of_pos_right m (Nat.two_pow_pos e)))
      rw [Binary64.ofInt, double]
      simpa [magnitudeBelow, magnitude] using value
    rw [Value.render, Number.render, beyond, Bool.and_false, if_neg Bool.false_ne_true,
      Binary64.ofInt, double, text]

/-! ## 3. Operations one after another -/

namespace Operation

/-- The operations that make a number whole. -/
def roundings : List String := ["round", "floor", "ceil"]

/-- A value after operations, one after another. -/
def applyAll (calls : List (String × Arguments)) (v : Value) : Except Fault Value :=
  calls.foldlM (fun v call => apply call.1 v call.2) v

/-- **Rounding makes the same value of an integer and of its double.** -/
theorem apply_rounding {name : String} (rounds : name ∈ roundings) {i : Int}
    (fits : i.natAbs < 2 ^ 64) {n : Number} (double : n.toBinary64 = Binary64.ofInt i)
    (args : Arguments) :
    apply name (.number n) args = .ok (.ofBinary64 (Binary64.ofInt i)) := by
  simp only [roundings, List.mem_cons, List.not_mem_nil, or_false] at rounds
  rcases rounds with rfl | rfl | rfl
  · rw [← round_ofInt fits, ← double]
    rfl
  · rw [← floor_ofInt fits, ← double]
    rfl
  · rw [← ceil_ofInt fits, ← double]
    rfl

theorem apply_abs {i : Int} (fits : i.natAbs < 2 ^ 64) (args : Arguments) :
    apply "abs" (.ofInt i) args = .ok (.ofBinary64 (Binary64.ofInt i.natAbs)) := by
  rw [← abs_ofInt fits]
  rfl

/-- Operations that keep a value keep it all along. -/
theorem applyAll_of_forall {calls : List (String × Arguments)} {v : Value}
    (keeps : ∀ call ∈ calls, apply call.1 v call.2 = .ok v) : applyAll calls v = .ok v := by
  induction calls with
  | nil => rfl
  | cons call calls ih =>
    obtain ⟨here, others⟩ := List.forall_mem_cons.1 keeps
    have rest := ih others
    rw [applyAll] at rest ⊢
    rw [List.foldlM_cons, here]
    exact rest

/-- **After any rounding an integer is the value of its double**, and it stays that. -/
theorem applyAll_roundings {calls : List (String × Arguments)}
    (rounds : ∀ call ∈ calls, call.1 ∈ roundings) {i : Int} (fits : i.natAbs < 2 ^ 64) :
    applyAll calls (.ofInt i) =
      .ok (if calls = [] then .ofInt i else .ofBinary64 (Binary64.ofInt i)) := by
  cases calls with
  | nil => rfl
  | cons call calls =>
    obtain ⟨here, others⟩ := List.forall_mem_cons.1 rounds
    have double : ∃ n, Value.ofBinary64 (Binary64.ofInt i) = .number n ∧
        n.toBinary64 = Binary64.ofInt i := by
      rw [Value.ofBinary64_ofInt fits]
      split
      · exact ⟨.int i, rfl, rfl⟩
      · exact ⟨_, rfl, rfl⟩
    obtain ⟨n, value, double⟩ := double
    have first : apply call.1 (.ofInt i) call.2 = .ok (.number n) :=
      value ▸ apply_rounding here fits rfl call.2
    have rest : applyAll calls (.number n) = .ok (.number n) := applyAll_of_forall fun c mem =>
      value ▸ apply_rounding (others c mem) fits double c.2
    rw [if_neg (List.cons_ne_nil _ _), value, applyAll, List.foldlM_cons, first]
    exact rest

/-- **Rounding keeps an integer exactly if it is the shortest one of its double**, and exactly then
its absolute value is kept.  All integers up to `2 ^ 53` are kept.  Another one is shown as the
shortest integer of its double, with its sign. -/
theorem rounded_integer_iff {i : Int} (fits : Number.isInteger i = true) :
    (∀ calls : List (String × Arguments), (∀ call ∈ calls, call.1 ∈ roundings) →
      ∃ v, applyAll calls (.ofInt i) = .ok v ∧
        (v.render = String.ofList (Json.integerText i) ↔ calls = [] ∨ Shortest i.natAbs)) ∧
    (∀ args, ∃ v, apply "abs" (.ofInt i) args = .ok v ∧
      (v.render = String.ofList (decimalDigits i.natAbs) ↔ Shortest i.natAbs)) ∧
    (i.natAbs ≤ 2 ^ 53 → Shortest i.natAbs) ∧
    ∃ a, Alike a i.natAbs ∧ Shortest a ∧
      ∀ calls : List (String × Arguments), (∀ call ∈ calls, call.1 ∈ roundings) → calls ≠ [] →
        ∃ v, applyAll calls (.ofInt i) = .ok v ∧
          v.render = String.ofList (signText (i < 0) ++ decimalDigits a) := by
  have small : i.natAbs < 2 ^ 64 := by
    simp only [Number.isInteger, Bool.and_eq_true, decide_eq_true_eq, Nat.pow_eq] at fits
    omega
  obtain ⟨a, alike, shortest, shown⟩ := exists_shown small
  have same : a = i.natAbs ↔ Shortest i.natAbs :=
    ⟨fun eq => eq ▸ shortest, fun h => shortest.unique h alike⟩
  refine ⟨fun calls rounds => ⟨_, applyAll_roundings rounds small, ?_⟩, fun args =>
    ⟨_, apply_abs small args, ?_⟩, shortest_of_le, a, alike, shortest, fun calls rounds some => ?_⟩
  · split
    · rename_i none
      exact iff_of_true rfl (Or.inl none)
    · rename_i some
      rw [shown i rfl, or_iff_right some, ← same, Json.integerText, String.ofList_inj,
        List.append_cancel_left_eq]
      exact ⟨decimalDigits_injective, congrArg decimalDigits⟩
  · have positive : signText ((i.natAbs : Int) < 0) = [] := by simp [signText]
    rw [shown _ (Int.natAbs_natCast _), positive, List.nil_append, String.ofList_inj, ← same]
    exact ⟨decimalDigits_injective, congrArg decimalDigits⟩
  · exact ⟨_, applyAll_roundings rounds small, by rw [if_neg some, shown i rfl]⟩

/-- A negative power of two, rounded downwards and then to the nearest whole number. -/
theorem rounded_power : Number.isInteger (-2 ^ 53) = true ∧ Shortest (2 ^ 53) ∧
    ∃ v, applyAll [("floor", {}), ("round", {})] (.ofInt (-2 ^ 53)) = .ok v ∧
      v.render = "-9007199254740992" := by
  have fits : Number.isInteger (-2 ^ 53) = true := by decide
  obtain ⟨kept, -, small, -⟩ := rounded_integer_iff fits
  have shortest : Shortest (2 ^ 53) := small (by decide)
  obtain ⟨v, result, text⟩ := kept [("floor", {}), ("round", {})] (by simp [roundings])
  refine ⟨fits, shortest, v, result, (text.2 (Or.inr shortest)).trans ?_⟩
  decide +kernel

/-- The integer behind it is shown as that power when it is rounded. -/
theorem round_moves : Number.isInteger (2 ^ 53 + 1) = true ∧
    String.ofList (Json.integerText (2 ^ 53 + 1)) = "9007199254740993" ∧
    ∃ v, applyAll [("round", {})] (.ofInt (2 ^ 53 + 1)) = .ok v ∧
      v.render = "9007199254740992" := by
  exact ⟨by decide, by decide +kernel, _, rfl, by decide +kernel⟩

end Operation

end Stencil
