/-
# Integers as doubles

An integer of at most 53 bits that is turned into the double nearest to it: its double is the
integer itself (`ofRatio_one_of_lt`), so nothing is lost (`truncated?_ofInt`).
-/
import Mathlib
import Stencil.Number.Binary64

namespace Stencil.Binary64

/-! ## 1. The exponent and the mantissa -/

theorem logQuotient_one {n : Nat} (positive : 0 < n) : logQuotient n 1 = n.log2 := by
  have low : 2 ^ n.log2 ≤ n := Nat.log2_self_le positive.ne'
  have one : Nat.log2 1 = 0 := by decide
  simp [logQuotient, scaled, one, Nat.not_lt.2 low]

/-- A ratio whose exponent is known is rounded to a mantissa; one of 54 bits goes to the next
exponent. -/
theorem ofRatio_eq {num den : Nat} (nonzero : num ≠ 0) {e : Int}
    (exponent : max (logQuotient num den - 52) leastExponent = e) (inRange : e < greatestExponent)
    (negative : Bool) :
    ofRatio negative num den =
      let m := roundQuotient .even (num * 2 ^ (-e).toNat) (den * 2 ^ e.toNat)
      if m < 2 ^ 53 then finite negative m e else finite negative (2 ^ 52) (e + 1) := by
  have inRange' : ¬ greatestExponent < e := by omega
  have inRange'' : ¬ greatestExponent < e + 1 := by omega
  rw [ofRatio, if_neg nonzero, exponent]
  simp only [scaled, Nat.pow_eq, if_neg inRange', if_neg inRange'']

theorem roundQuotient_one (tie : Tie) (n : Nat) : roundQuotient tie n 1 = n := by
  simp [roundQuotient, Nat.mod_one]

theorem div_le_roundQuotient (tie : Tie) (num den : Nat) :
    num / den ≤ roundQuotient tie num den := by
  unfold roundQuotient
  cases tie <;> simp only <;> split_ifs <;> omega

/-! ## 2. Small integers -/

/-- A number of few bits, shifted to 53 of them. -/
theorem shifted_lt {n : Nat} (small : n < 2 ^ 53) : n * 2 ^ (52 - n.log2) < 2 ^ 53 := by
  rcases Nat.eq_zero_or_pos n with rfl | positive
  · simp
  have bits : n.log2 < 53 := (Nat.log2_lt positive.ne').2 small
  calc n * 2 ^ (52 - n.log2)
      < 2 ^ (n.log2 + 1) * 2 ^ (52 - n.log2) :=
        Nat.mul_lt_mul_of_pos_right Nat.lt_log2_self (Nat.two_pow_pos _)
    _ = 2 ^ 53 := by
        rw [← Nat.pow_add]
        congr 1
        omega

/-- **An integer of at most 53 bits is a double.** -/
theorem ofRatio_one_of_lt {n : Nat} (positive : 0 < n) (small : n < 2 ^ 53) (negative : Bool) :
    ofRatio negative n 1 = finite negative (n * 2 ^ (52 - n.log2)) (-(52 - n.log2 : Nat)) := by
  have bits : n.log2 < 53 := (Nat.log2_lt positive.ne').2 small
  have exponent : max (logQuotient n 1 - 52) leastExponent = -(52 - n.log2 : Nat) := by
    rw [logQuotient_one positive, leastExponent]
    omega
  have inRange : -(52 - n.log2 : Nat) < greatestExponent := by
    rw [greatestExponent]
    omega
  have up : (-(-(52 - n.log2 : Nat) : Int)).toNat = 52 - n.log2 := by omega
  have down : (-(52 - n.log2 : Nat) : Int).toNat = 0 := by omega
  rw [ofRatio_eq positive.ne' exponent inRange, up, down, Nat.pow_zero, Nat.mul_one,
    roundQuotient_one]
  exact if_pos (shifted_lt small)

theorem truncated?_ofRatio_one {n : Nat} (small : n < 2 ^ 53) (negative : Bool) :
    (ofRatio negative n 1).truncated? = some (if negative then -(n : Int) else n) := by
  rcases Nat.eq_zero_or_pos n with rfl | positive
  · simp [ofRatio, truncated?, magnitude]
  · have unshifted : n * 2 ^ (52 - n.log2) / 2 ^ (52 - n.log2) = n :=
      Nat.mul_div_cancel n (Nat.two_pow_pos _)
    rw [ofRatio_one_of_lt positive small]
    simp [truncated?, magnitude, unshifted]

/-- **A small integer is not changed** by becoming a double. -/
theorem truncated?_ofInt {i : Int} (small : i.natAbs < 2 ^ 53) : (ofInt i).truncated? = some i := by
  rw [ofInt, truncated?_ofRatio_one small]
  congr 1
  by_cases negative : i < 0
  · rw [if_pos (decide_eq_true negative)]
    omega
  · rw [if_neg (by simpa using negative)]
    omega

theorem toInteger_ofInt {i : Int} (small : i.natAbs < 2 ^ 53) : (ofInt i).toInteger = i := by
  have truncated := truncated?_ofInt small
  have range : leastInteger ≤ i ∧ i ≤ greatestInteger := by
    simp only [leastInteger, greatestInteger, Nat.pow_eq]
    omega
  cases found : ofInt i with
  | nan => simp [found, truncated?] at truncated
  | infinite negative => simp [found, truncated?] at truncated
  | finite negative m e =>
    rw [found] at truncated
    simp only [toInteger, truncated, min_eq_right range.2, max_eq_right range.1]

end Stencil.Binary64
