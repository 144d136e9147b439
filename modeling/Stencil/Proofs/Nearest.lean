/-
# The integers of a double

Which integers have a given double for their nearest one.  From `2 ^ 52` on a double is a mantissa
of 53 bits times a power of two, and the integers around it are those up to half a unit of its last
place away; below a power of two the doubles lie twice as close, so there it is a quarter.

* `roundQuotient_even_eq_iff`, `roundQuotient_up_bounds`: how near a rounded quotient is;
* `ofRatio_one_eq_iff`: the integers with a given double;
* `exists_whole`: the double of a large integer;
* `Alike`: integers with the same double.  Below `2 ^ 53` every integer is alone with its double.

A bound counts itself when the mantissa is even.  As all of it is about natural numbers, the
remainder of the mantissa is added where it has to be exceeded.
-/
import Stencil.Proofs.Integral

namespace Stencil.Binary64

/-! ## 1. Rounded quotients -/

/-- **A quotient is rounded to the number at most half a unit away**, and it is exactly half a unit
away only from an even one. -/
theorem roundQuotient_even_eq_iff {den : Nat} (positive : 0 < den) (num m : Nat) :
    roundQuotient .even num den = m ↔
      2 * (m * den) + m % 2 ≤ 2 * num + den ∧ 2 * num + m % 2 ≤ 2 * (m * den) + den := by
  have whole : num / den * den + num % den = num := Nat.div_add_mod' num den
  have bound : num % den < den := Nat.mod_lt num positive
  unfold roundQuotient
  generalize num / den = q at *
  generalize num % den = r at *
  have next : (q + 1) * den = q * den + den := Nat.succ_mul q den
  rcases Nat.lt_trichotomy m q with less | rfl | more
  · have far := Nat.mul_le_mul_right den less
    rw [Nat.succ_mul] at far
    simp only
    split_ifs <;> omega
  · simp only
    split_ifs <;> omega
  · rcases Nat.eq_or_lt_of_le more with rfl | more
    · simp only [Nat.succ_eq_add_one]
      split_ifs <;> omega
    · have far := Nat.mul_le_mul_right den more
      rw [Nat.succ_mul, Nat.succ_mul] at far
      simp only
      split_ifs <;> omega

/-- A quotient rounded with ties upwards is at most half a unit away, and less than half a unit
below. -/
theorem roundQuotient_up_bounds {den : Nat} (positive : 0 < den) (num : Nat) :
    2 * (roundQuotient .up num den * den) ≤ 2 * num + den ∧
      2 * num < 2 * (roundQuotient .up num den * den) + den := by
  have whole : num / den * den + num % den = num := Nat.div_add_mod' num den
  have bound : num % den < den := Nat.mod_lt num positive
  unfold roundQuotient
  generalize num / den = q at *
  generalize num % den = r at *
  have next : (q + 1) * den = q * den + den := Nat.succ_mul q den
  simp only
  split_ifs <;> omega

theorem roundQuotient_eq_or (tie : Tie) (num den : Nat) :
    roundQuotient tie num den = num / den ∨ roundQuotient tie num den = num / den + 1 := by
  unfold roundQuotient
  cases tie <;> simp only <;> split_ifs <;> simp

/-- A common factor of both numbers does not matter. -/
theorem roundQuotient_mul_right (tie : Tie) (num den : Nat) {c : Nat} (positive : 0 < c) :
    roundQuotient tie (num * c) (den * c) = roundQuotient tie num den := by
  have quotient : num * c / (den * c) = num / den := Nat.mul_div_mul_right num den positive
  have remainder : num * c % (den * c) = num % den * c := Nat.mul_mod_mul_right c num den
  have below : 2 * (num % den * c) < den * c ↔ 2 * (num % den) < den := by
    rw [← Nat.mul_assoc, Nat.mul_lt_mul_right positive]
  have above : den * c < 2 * (num % den * c) ↔ den < 2 * (num % den) := by
    rw [← Nat.mul_assoc, Nat.mul_lt_mul_right positive]
  simp only [roundQuotient, quotient, remainder, below, above]

/-! ## 2. The integers around a double -/

/-- The double `m · 2 ^ e` is whole, and its mantissa has 53 bits. -/
structure Whole (m e : Nat) : Prop where
  normal : 2 ^ 52 ≤ m
  bits : m < 2 ^ 53
  inRange : e < 970

/-- An integer is nearer to the double `m · 2 ^ e` than to all others: at most half a unit of the
last place away, or a quarter below a power of two. -/
structure Near (m e n : Nat) : Prop where
  low : 4 * (m * 2 ^ e) + m % 2 ≤ 4 * n + (if m = 2 ^ 52 then 1 else 2) * 2 ^ e
  high : 4 * n + m % 2 ≤ 4 * (m * 2 ^ e) + 2 * 2 ^ e

theorem Near.self (m e : Nat) : Near m e (m * 2 ^ e) := by
  have unit : 1 ≤ 2 ^ e := Nat.one_le_two_pow
  refine ⟨?_, by omega⟩
  split_ifs <;> omega

/-- What an integer of more than 52 bits is rounded to: a mantissa, or a power of two. -/
theorem ofRatio_one_of_log {n k : Nat} (log : n.log2 = 52 + k) (negative : Bool) :
    ofRatio negative n 1 =
      if roundQuotient .even n (2 ^ k) < 2 ^ 53 then
        if greatestExponent < k then infinite negative
        else finite negative (roundQuotient .even n (2 ^ k)) k
      else if greatestExponent < (k : Int) + 1 then infinite negative
      else finite negative (2 ^ 52) ((k : Int) + 1) := by
  have nonzero : n ≠ 0 := by
    rintro rfl
    rw [Nat.log2_zero] at log
    omega
  have exponent : max (logQuotient n 1 - 52) leastExponent = k := by
    rw [logQuotient_one (Nat.pos_of_ne_zero nonzero), leastExponent, log]
    omega
  have up : (-(k : Int)).toNat = 0 := by omega
  rw [ofRatio, if_neg nonzero, exponent]
  simp only [scaled, Nat.pow_eq, up, Nat.pow_zero, Nat.mul_one, Nat.one_mul, Int.toNat_natCast]

theorem ofRatio_one_eq_finite_iff {n k : Nat} (log : n.log2 = 52 + k) (negative : Bool) {m e : Nat}
    (inRange : e < 970) : ofRatio negative n 1 = finite negative m e ↔
      (roundQuotient .even n (2 ^ k) < 2 ^ 53 ∧ roundQuotient .even n (2 ^ k) = m ∧ k = e) ∨
      (2 ^ 53 ≤ roundQuotient .even n (2 ^ k) ∧ 2 ^ 52 = m ∧ k + 1 = e) := by
  have limit : greatestExponent = 971 := rfl
  rw [ofRatio_one_of_log log]
  split
  · split <;> simp only [finite.injEq, reduceCtorEq, true_and, false_iff] <;> omega
  · split <;> simp only [finite.injEq, reduceCtorEq, true_and, false_iff] <;> omega

/-- An integer of at most 53 bits has no positive exponent, and one of at most 52 bits a negative
one. -/
theorem ofRatio_one_of_small {n : Nat} (small : n < 2 ^ 53) (negative : Bool) :
    ∃ m e, ofRatio negative n 1 = finite negative m e ∧ e ≤ 0 ∧ (n < 2 ^ 52 → e < 0) := by
  rcases Nat.eq_zero_or_pos n with rfl | positive
  · exact ⟨0, leastExponent, by simp [ofRatio], by decide, fun _ => by decide⟩
  · refine ⟨_, _, ofRatio_one_of_lt positive small negative, by omega, fun smaller => ?_⟩
    have bits : n.log2 < 52 := (Nat.log2_lt positive.ne').2 smaller
    omega

theorem log2_bounds {n k : Nat} (log : n.log2 = 52 + k) :
    2 ^ 52 * 2 ^ k ≤ n ∧ n < 2 ^ 53 * 2 ^ k := by
  have nonzero : n ≠ 0 := by
    rintro rfl
    rw [Nat.log2_zero] at log
    omega
  have low := Nat.log2_self_le nonzero
  have high := @Nat.lt_log2_self n
  rw [log, Nat.pow_add] at low
  rw [log, show 52 + k + 1 = 53 + k by omega, Nat.pow_add] at high
  exact ⟨low, high⟩

/-- What is rounded to a mantissa is near to the double. -/
theorem near_roundQuotient {n k : Nat} (log : n.log2 = 52 + k) :
    Near (roundQuotient .even n (2 ^ k)) k n := by
  obtain ⟨least, greatest⟩ := log2_bounds log
  have nearest := (roundQuotient_even_eq_iff (Nat.two_pow_pos k) n _).1 rfl
  generalize roundQuotient .even n (2 ^ k) = q at nearest ⊢
  refine ⟨?_, by omega⟩
  split_ifs with power
  · rw [power] at nearest ⊢
    omega
  · omega

/-- What is rounded to more than a mantissa is near to the next power of two. -/
theorem near_of_full {n k : Nat} (log : n.log2 = 52 + k)
    (full : 2 ^ 53 ≤ roundQuotient .even n (2 ^ k)) : Near (2 ^ 52) (k + 1) n := by
  obtain ⟨least, greatest⟩ := log2_bounds log
  have nearest := (roundQuotient_even_eq_iff (Nat.two_pow_pos k) n _).1 rfl
  have whole := Nat.mul_le_mul_right (2 ^ k) full
  have double : 2 ^ (k + 1) = 2 ^ k * 2 := Nat.pow_succ 2 k
  exact ⟨by rw [if_pos rfl]; omega, by omega⟩

/-- **The exponent of a double is that of the integers near it**, but those below a power of two may
have one less. -/
theorem Near.exponent {m e n k : Nat} (near : Near m e n) (h : Whole m e)
    (log : n.log2 = 52 + k) : k = e ∨ (k + 1 = e ∧ m = 2 ^ 52) := by
  obtain ⟨low, high⟩ := near
  obtain ⟨least, greatest⟩ := log2_bounds log
  have unit : 1 ≤ 2 ^ e := Nat.one_le_two_pow
  have below := Nat.mul_le_mul_right (2 ^ e) h.normal
  have above := Nat.mul_le_mul_right (2 ^ e) (Nat.succ_le_of_lt h.bits)
  rw [Nat.succ_mul] at above
  have gap : (if m = 2 ^ 52 then 1 else 2) * 2 ^ e ≤ 2 * 2 ^ e :=
    Nat.mul_le_mul_right _ (by split_ifs <;> decide)
  have atMost : k ≤ e := by
    by_contra more
    have power : 2 ^ (e + 1) ≤ 2 ^ k := Nat.pow_le_pow_right (by decide) (by omega)
    rw [Nat.pow_succ] at power
    omega
  have atLeast : e ≤ k + 1 := by
    by_contra less
    have power : 2 ^ (k + 2) ≤ 2 ^ e := Nat.pow_le_pow_right (by decide) (by omega)
    rw [Nat.pow_add] at power
    omega
  rcases Nat.eq_or_lt_of_le atMost with same | less
  · exact Or.inl same
  · have next : k + 1 = e := by omega
    have double : 2 ^ e = 2 ^ k * 2 := by rw [← next, Nat.pow_succ]
    refine Or.inr ⟨next, ?_⟩
    by_contra other
    have more : 2 ^ 52 + 1 ≤ m := Nat.lt_of_le_of_ne h.normal (Ne.symm other)
    have far := Nat.mul_le_mul_right (2 ^ e) more
    rw [Nat.succ_mul] at far
    omega

/-- **The integers of a double** are those near it. -/
theorem ofRatio_one_eq_iff {m e : Nat} (h : Whole m e) (negative : Bool) (n : Nat) :
    ofRatio negative n 1 = finite negative m e ↔ Near m e n := by
  rcases Nat.lt_or_ge n (2 ^ 52) with small | large
  · obtain ⟨m', e', double, -, exponent⟩ :=
      ofRatio_one_of_small (Nat.lt_trans small (by decide)) negative
    refine iff_of_false (fun same => ?_) ?_
    · rw [double] at same
      simp only [finite.injEq] at same
      have := exponent small
      omega
    · rintro ⟨low, -⟩
      have unit : 1 ≤ 2 ^ e := Nat.one_le_two_pow
      have below := Nat.mul_le_mul_right (2 ^ e) h.normal
      split_ifs at low <;> omega
  · obtain ⟨k, log⟩ := Nat.exists_eq_add_of_le ((Nat.le_log2 (by omega)).2 large)
    rw [ofRatio_one_eq_finite_iff log negative h.inRange]
    constructor
    · rintro (⟨-, rfl, rfl⟩ | ⟨full, rfl, rfl⟩)
      · exact near_roundQuotient log
      · exact near_of_full log full
    · intro near
      have rounded := fun m => (roundQuotient_even_eq_iff (Nat.two_pow_pos k) n m).2
      obtain ⟨least, greatest⟩ := log2_bounds log
      rcases near.exponent h log with rfl | ⟨rfl, rfl⟩
      · have here : roundQuotient .even n (2 ^ k) = m := by
          obtain ⟨low, high⟩ := near
          refine rounded m ⟨?_, by omega⟩
          split_ifs at low with power
          · rw [power]
            omega
          · omega
        exact Or.inl ⟨here ▸ h.bits, here, rfl⟩
      · have here : roundQuotient .even n (2 ^ k) = 2 ^ 53 := by
          have low := near.low
          rw [if_pos rfl, Nat.pow_succ 2 k] at low
          exact rounded _ (by omega)
        exact Or.inr ⟨here ▸ Nat.le_refl _, rfl, rfl⟩

/-- A large integer has a whole double. -/
theorem exists_whole {n : Nat} (large : 2 ^ 52 ≤ n) (inRange : n.log2 < 1000) :
    ∃ m e, Whole m e ∧ 52 + e ≤ n.log2 + 1 ∧
      ∀ negative, ofRatio negative n 1 = finite negative m (e : Nat) := by
  have nonzero : n ≠ 0 := (Nat.lt_of_lt_of_le (Nat.two_pow_pos 52) large).ne'
  obtain ⟨k, log⟩ := Nat.exists_eq_add_of_le ((Nat.le_log2 nonzero).2 large)
  have least : 2 ^ 52 ≤ roundQuotient .even n (2 ^ k) :=
    Nat.le_trans ((Nat.le_div_iff_mul_le (Nat.two_pow_pos k)).2 (log2_bounds log).1)
      (div_le_roundQuotient ..)
  rcases Nat.lt_or_ge (roundQuotient .even n (2 ^ k)) (2 ^ 53) with small | full
  · exact ⟨_, k, ⟨least, small, by omega⟩, by omega, fun negative =>
      (ofRatio_one_eq_finite_iff log negative (by omega)).2 (Or.inl ⟨small, rfl, rfl⟩)⟩
  · exact ⟨2 ^ 52, k + 1, ⟨Nat.le_refl _, by decide, by omega⟩, by omega, fun negative =>
      (ofRatio_one_eq_finite_iff log negative (by omega)).2 (Or.inr ⟨full, rfl, rfl⟩)⟩

/-! ## 3. Integers with the same double -/

/-- Two integers have the same double. -/
def Alike (a b : Nat) : Prop := ofRatio false a 1 = ofRatio false b 1

instance : DecidableRel Alike := fun a b =>
  inferInstanceAs (Decidable (ofRatio false a 1 = ofRatio false b 1))

/-- **An integer below `2 ^ 53` is alone with its double.** -/
theorem eq_of_alike {a b : Nat} (alike : Alike a b) (small : b < 2 ^ 53) : a = b := by
  unfold Alike at alike
  rcases Nat.lt_or_ge a (2 ^ 53) with small' | large
  · have same := (truncated?_ofRatio_one small' false).symm.trans
      ((congrArg truncated? alike).trans (truncated?_ofRatio_one small false))
    simpa using same
  · have bits : 53 ≤ a.log2 := (Nat.le_log2 (by omega)).2 large
    obtain ⟨k, log⟩ := Nat.exists_eq_add_of_le bits
    obtain ⟨m, e, double, exponent, -⟩ := ofRatio_one_of_small small false
    rw [double, ofRatio_one_of_log (by omega : a.log2 = 52 + (k + 1))] at alike
    split at alike
    · split at alike <;> simp only [finite.injEq, reduceCtorEq] at alike
      omega
    · split at alike <;> simp only [finite.injEq, reduceCtorEq] at alike
      omega

example : Alike (2 ^ 53 + 1) (2 ^ 53) := by decide +kernel

/-- The integers with the double of a large one. -/
theorem alike_iff {m e : Nat} (h : Whole m e) {b : Nat}
    (double : ofRatio false b 1 = finite false m e) (a : Nat) : Alike a b ↔ Near m e a := by
  rw [Alike, double, ofRatio_one_eq_iff h]

/-! ## 4. Integers of 64 bits -/

/-- **The double of an integer of 64 bits is whole.**  Below `2 ^ 53` it is the integer itself, and
the double of a greater one is not below that bound. -/
theorem ofRatio_one_whole {n : Nat} (fits : n < 2 ^ 64) :
    ∃ m e w d, (∀ negative, ofRatio negative n 1 = finite negative m e ∧
        ofRatio negative w 1 = finite negative m e) ∧
      magnitude m e = (w * d, d) ∧ 0 < d ∧ (n < 2 ^ 53 ∧ w = n ∨ 2 ^ 53 ≤ n ∧ 2 ^ 53 ≤ w) := by
  have power : ∀ k, 0 < Nat.pow 2 k := fun k => Nat.two_pow_pos k
  rcases Nat.lt_or_ge n (2 ^ 53) with small | large
  · rcases Nat.eq_zero_or_pos n with rfl | positive
    · have zero : ∀ negative, ofRatio negative 0 1 = finite negative 0 leastExponent := fun _ => by
        simp [ofRatio]
      exact ⟨0, leastExponent, 0, Nat.pow 2 (-leastExponent).toNat,
        fun negative => ⟨zero negative, zero negative⟩,
        by rw [magnitude, Nat.zero_mul, Nat.zero_mul], power _, Or.inl ⟨small, rfl⟩⟩
    · have double := fun negative => ofRatio_one_of_lt positive small negative
      refine ⟨_, _, n, 2 ^ (52 - n.log2), fun negative => ⟨double negative, double negative⟩, ?_,
        power _, Or.inl ⟨small, rfl⟩⟩
      simp [magnitude]
  · have bits : n.log2 < 64 := (Nat.log2_lt (by omega)).2 fits
    obtain ⟨m, e, whole, -, double⟩ := exists_whole
      (Nat.le_trans (by decide : 2 ^ 52 ≤ 2 ^ 53) large) (Nat.lt_trans bits (by decide))
    refine ⟨m, e, m * 2 ^ e, 1, fun negative =>
      ⟨double negative, (ofRatio_one_eq_iff whole negative _).2 (.self m e)⟩,
      by simp [magnitude], Nat.one_pos, Or.inr ⟨large, ?_⟩⟩
    have near := (ofRatio_one_eq_iff whole false n).1 (double false)
    have even : 2 ≤ 2 ^ e := by
      cases e with
      | zero =>
        have high := near.high
        have bits := whole.bits
        omega
      | succ e => exact Nat.le_self_pow (Nat.succ_ne_zero e) 2
    exact Nat.le_trans (by decide) (Nat.mul_le_mul whole.normal even)

end Stencil.Binary64
