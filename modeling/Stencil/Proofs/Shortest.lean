/-
# The integer that a whole double shows

A whole double is written by the integer with the most zeros at its end among those that read back
to the double, and of these by the one nearest to it, the upper one of two.

* `Shortest`: an integer is that one among the integers with its double.  There is just one
  (`Shortest.unique`), and up to `2 ^ 53` every integer is it (`shortest_of_le`);
* `search_spec`: the grids of powers of ten are searched downwards, and the first one with an
  integer of the double gives the nearest one on it.  Seventeen of them are enough;
* `display_whole`: the text of a whole double is the decimal text of its shortest integer.

No integer of a double is a multiple of a greater power of ten than the double has digits: such a
power is a double itself.
-/
import Stencil.Proofs.Nearest
import Stencil.Proofs.Numerals

namespace Stencil.Binary64

open Stencil.Text

/-! ## 1. The shortest integer of a double -/

/-- The integer that a whole double is. -/
def wholeValue (x : Binary64) : Nat := (x.truncated?.getD 0).natAbs

/-- An integer is nearer to a double than another, or as near and not below it. -/
def Closer (x a b : Nat) : Prop :=
  Nat.dist a x < Nat.dist b x ∨ (Nat.dist a x = Nat.dist b x ∧ b ≤ a)

/-- An integer is the shortest one of its double. -/
structure Shortest (n : Nat) : Prop where
  /-- No other has more zeros at its end. -/
  fewest : ∀ a k, Alike a n → 10 ^ k ∣ a → 10 ^ k ∣ n
  /-- Of those that have as many, none is nearer to the double. -/
  nearest : ∀ a, Alike a n → (∀ k, 10 ^ k ∣ n → 10 ^ k ∣ a) →
    Closer (wholeValue (ofRatio false n 1)) n a

theorem Closer.refl (x a : Nat) : Closer x a a := Or.inr ⟨rfl, Nat.le_refl a⟩

/-- **A double has only one shortest integer.** -/
theorem Shortest.unique {a b : Nat} (h : Shortest a) (h' : Shortest b) (alike : Alike a b) :
    a = b := by
  have near := h.nearest b alike.symm fun k => h'.fewest a k alike
  have near' := h'.nearest a alike fun k => h.fewest b k alike.symm
  rw [show ofRatio false a 1 = ofRatio false b 1 from alike] at near
  unfold Closer at near near'
  omega

/-- An integer below `2 ^ 53` is the shortest one of its double. -/
theorem shortest_of_lt {n : Nat} (small : n < 2 ^ 53) : Shortest n where
  fewest _ _ alike divides := eq_of_alike alike small ▸ divides
  nearest _ alike _ := eq_of_alike alike small ▸ .refl ..

/-- An integer up to `2 ^ 53` is the shortest one of its double. -/
theorem shortest_of_le {n : Nat} (small : n ≤ 2 ^ 53) : Shortest n := by
  rcases Nat.lt_or_eq_of_le small with less | rfl
  · exact shortest_of_lt less
  have whole : Whole (2 ^ 52) 1 := ⟨Nat.le_refl _, by decide, by decide⟩
  have double : ofRatio false (2 ^ 53) 1 = finite false (2 ^ 52) (1 : Nat) := by decide +kernel
  have value : wholeValue (ofRatio false (2 ^ 53) 1) = 2 ^ 53 := by decide +kernel
  -- the next integer has the same double, but an odd one has no zeros at its end
  have alone : ∀ a, Alike a (2 ^ 53) → a = 2 ^ 53 ∨ a = 2 ^ 53 + 1 := by
    intro a alike
    obtain ⟨low, high⟩ := (alike_iff whole double a).1 alike
    rw [if_pos rfl] at low
    omega
  constructor
  · intro a k alike divides
    rcases alone a alike with rfl | rfl
    · exact divides
    · cases k with
      | zero => exact Nat.one_dvd _
      | succ k =>
        have ten := Nat.dvd_trans (Dvd.intro_left (10 ^ k) rfl) divides
        exact absurd ten (by decide)
  · intro a alike _
    rw [value]
    unfold Closer Nat.dist
    rcases alone a alike with rfl | rfl <;> omega

/-! ## 2. Grids -/

variable {m e : Nat}

/-- What lies between an integer of a double and the double is one too. -/
theorem Near.of_above {a b : Nat} (h : Near m e a) (le : m * 2 ^ e ≤ b) (le' : b ≤ a) :
    Near m e b := by
  obtain ⟨low, -⟩ := Near.self m e
  exact ⟨Nat.le_trans low (by omega), Nat.le_trans (by omega) h.high⟩

theorem Near.of_below {a b : Nat} (h : Near m e a) (le : a ≤ b) (le' : b ≤ m * 2 ^ e) :
    Near m e b := by
  obtain ⟨-, high⟩ := Near.self m e
  exact ⟨Nat.le_trans h.low (by omega), Nat.le_trans (by omega) high⟩

/-- The unit of an interval, a quarter of the last place, as a quotient. -/
theorem magnitude_unit (e : Nat) : ∃ unit den, magnitude 1 ((e : Int) - 2) = (unit, den) ∧
    4 * unit = 2 ^ e * den ∧ 0 < den ∧ den < 10 := by
  match e with
  | 0 => exact ⟨1, 4, by decide⟩
  | 1 => exact ⟨1, 2, by decide⟩
  | e + 2 =>
    have up : (((e + 2 : Nat) : Int) - 2).toNat = e := by omega
    have down : (-(((e + 2 : Nat) : Int) - 2)).toNat = 0 := by omega
    refine ⟨2 ^ e, 1, ?_, by rw [Nat.pow_add]; omega, by decide, by decide⟩
    simp only [magnitude, up, down, Nat.pow_eq, Nat.one_mul, Nat.pow_zero]

theorem interval_value (m e : Nat) :
    (interval m e).value = m * 2 ^ e * (interval m e).den ∧ 0 < (interval m e).den ∧
      (interval m e).den < 10 := by
  obtain ⟨unit, den, quotient, same, positive, small⟩ := magnitude_unit e
  simp only [interval, quotient]
  refine ⟨?_, positive, small⟩
  rw [Nat.mul_right_comm, same, Nat.mul_comm (2 ^ e * den), Nat.mul_assoc]

/-- The bounds of a double, counted in its unit. -/
theorem near_iff {unit den : Nat} (same : 4 * unit = 2 ^ e * den) (positive : 0 < den)
    (n : Nat) : Near m e n ↔
      (4 * (m * unit) + m % 2 ≤ n * den + (if m = 2 ^ 52 then 1 else 2) * unit ∧
        n * den + m % 2 ≤ 4 * (m * unit) + 2 * unit) := by
  have value : m * 2 ^ e * den = 4 * (m * unit) := by
    rw [Nat.mul_assoc, ← same, Nat.mul_left_comm]
  generalize bound : (if m = 2 ^ 52 then 1 else 2) = gap
  have least : (4 * n + gap * 2 ^ e) * den = 4 * (n * den + gap * unit) := by
    rw [Nat.add_mul, Nat.mul_assoc, Nat.mul_assoc gap, ← same, Nat.mul_left_comm gap, Nat.mul_add]
  have greatest : (4 * (m * 2 ^ e) + 2 * 2 ^ e) * den = 4 * (4 * (m * unit) + 2 * unit) := by
    rw [Nat.add_mul, Nat.mul_assoc, value, Nat.mul_assoc 2, ← same]
    omega
  have scaled : ∀ a b : Nat, a + m % 2 ≤ b ↔ a * den + m % 2 ≤ b * den := by
    intro a b
    rcases Nat.mod_two_eq_zero_or_one m with even | odd
    · rw [even]
      exact (Nat.mul_le_mul_right_iff positive).symm
    · rw [odd]
      exact (Nat.mul_lt_mul_right positive).symm
  have low : 4 * (m * 2 ^ e) + m % 2 ≤ 4 * n + gap * 2 ^ e ↔
      4 * (m * unit) + m % 2 ≤ n * den + gap * unit := by
    rw [scaled, least, Nat.mul_assoc, value]
    omega
  have high : 4 * n + m % 2 ≤ 4 * (m * 2 ^ e) + 2 * 2 ^ e ↔
      n * den + m % 2 ≤ 4 * (m * unit) + 2 * unit := by
    rw [scaled, greatest, Nat.mul_assoc]
    omega
  rw [← low, ← high, ← bound]
  exact ⟨fun near => ⟨near.low, near.high⟩, fun bounds => ⟨bounds.1, bounds.2⟩⟩

/-- **The search looks for integers of the double.** -/
theorem holds_interval (m e digits k : Nat) :
    (interval m e).holds digits k = true ↔ Near m e (digits * 10 ^ k) := by
  obtain ⟨unit, den, quotient, same, positive, -⟩ := magnitude_unit e
  have exponent : ((e : Int) != leastExponent) = true := by
    simp [leastExponent]
  have up : (-(k : Int)).toNat = 0 := by omega
  rw [near_iff same positive]
  simp only [Interval.holds, interval, quotient, exponent, up, Int.toNat_natCast, Nat.pow_eq,
    Nat.pow_zero, Nat.mul_one, Bool.and_true, beq_iff_eq, Nat.add_mul, Nat.sub_mul, Nat.mul_assoc 4]
  generalize digits * 10 ^ k * den = x
  rcases Nat.mod_two_eq_zero_or_one m with even | odd
  · simp only [even, if_true, Bool.and_eq_true, decide_eq_true_eq]
    split_ifs <;> omega
  · simp only [odd, Nat.one_ne_zero, if_false, Bool.and_eq_true, decide_eq_true_eq]
    have unit' : unit ≤ m * unit := Nat.le_mul_of_pos_left unit (by omega)
    split_ifs <;> omega

/-- The number that a quotient is rounded to is the closest one on its grid. -/
theorem closer_roundQuotient {grid : Nat} (positive : 0 < grid) (x d : Nat) :
    Closer x (roundQuotient .up x grid * grid) (d * grid) := by
  obtain ⟨high, low⟩ := roundQuotient_up_bounds positive x
  generalize roundQuotient .up x grid = first at *
  unfold Closer Nat.dist
  rcases Nat.lt_trichotomy d first with less | rfl | more
  · have far := Nat.mul_le_mul_right grid less
    rw [Nat.succ_mul] at far
    omega
  · exact Or.inr ⟨rfl, Nat.le_refl _⟩
  · have far := Nat.mul_le_mul_right grid more
    rw [Nat.succ_mul] at far
    omega

/-- The number next to a quotient that the quotient is not rounded to. -/
def otherNeighbour (num den : Nat) : Nat :=
  if roundQuotient .up num den = num / den then num / den + 1 else num / den

/-- What the search does on one grid: it looks at the two neighbours of the double, first at the
closer one. -/
theorem nearest?_eq (m e k : Nat) :
    (interval m e).nearest? .up k =
      if (interval m e).holds (roundQuotient .up (m * 2 ^ e) (10 ^ k)) k = true then
        some (roundQuotient .up (m * 2 ^ e) (10 ^ k))
      else if (interval m e).holds (otherNeighbour (m * 2 ^ e) (10 ^ k)) k = true then
        some (otherNeighbour (m * 2 ^ e) (10 ^ k))
      else none := by
  obtain ⟨value, positive, -⟩ := interval_value m e
  have up : (-(k : Int)).toNat = 0 := by omega
  have swap : (interval m e).den * 10 ^ k = 10 ^ k * (interval m e).den := Nat.mul_comm ..
  simp only [Interval.nearest?, up, Int.toNat_natCast, Nat.pow_eq, Nat.pow_zero, Nat.mul_one, value,
    swap, Nat.mul_div_mul_right _ _ positive, roundQuotient_mul_right _ _ _ positive]
  rfl

/-- If the closer neighbour is no integer of the double, but others on the grid are, then the other
neighbour is the closest of them. -/
theorem near_or_near {grid : Nat} (positive : 0 < grid) {d : Nat} (near : Near m e (d * grid)) :
    Near m e (roundQuotient .up (m * 2 ^ e) grid * grid) ∨
      (Near m e (otherNeighbour (m * 2 ^ e) grid * grid) ∧
        Closer (m * 2 ^ e) (otherNeighbour (m * 2 ^ e) grid * grid) (d * grid)) := by
  generalize other : otherNeighbour (m * 2 ^ e) grid = second
  rw [otherNeighbour] at other
  have neighbours := roundQuotient_eq_or .up (m * 2 ^ e) grid
  have below : m * 2 ^ e / grid * grid ≤ m * 2 ^ e := Nat.div_mul_le_self ..
  have above : m * 2 ^ e ≤ (m * 2 ^ e / grid + 1) * grid := by
    rw [Nat.mul_comm (_ + 1)]
    exact (Nat.lt_mul_div_succ _ positive).le
  generalize roundQuotient .up (m * 2 ^ e) grid = first at *
  generalize m * 2 ^ e / grid = down at *
  have closer : second = down ∧ d ≤ down ∨ second = down + 1 ∧ down + 1 ≤ d →
      Closer (m * 2 ^ e) (second * grid) (d * grid) := by
    rintro (⟨rfl, less⟩ | ⟨rfl, more⟩)
    · have far := Nat.mul_le_mul_right grid less
      unfold Closer Nat.dist
      omega
    · have far := Nat.mul_le_mul_right grid more
      unfold Closer Nat.dist
      omega
  rcases Nat.lt_or_ge down d with more | less
  · have upper := near.of_above above (Nat.mul_le_mul_right grid more)
    rcases neighbours with rfl | rfl
    · rw [if_pos rfl] at other
      exact Or.inr ⟨other ▸ upper, closer (Or.inr ⟨other.symm, more⟩)⟩
    · exact Or.inl upper
  · have lower := near.of_below (Nat.mul_le_mul_right grid less) below
    rcases neighbours with rfl | rfl
    · exact Or.inl lower
    · rw [if_neg (Nat.succ_ne_self down)] at other
      exact Or.inr ⟨other ▸ lower, closer (Or.inl ⟨other.symm, less⟩)⟩

/-- The closest integer of a double among the multiples of a power of ten. -/
structure Closest (m e k digits : Nat) : Prop where
  near : Near m e (digits * 10 ^ k)
  closer : ∀ d, Near m e (d * 10 ^ k) → Closer (m * 2 ^ e) (digits * 10 ^ k) (d * 10 ^ k)

/-- **On one grid the search finds the closest integer of the double**, if there is one. -/
theorem nearest?_spec (m e k : Nat) :
    (∀ d, (interval m e).nearest? .up k = some d → Closest m e k d) ∧
    ((interval m e).nearest? .up k = none → ∀ d, ¬ Near m e (d * 10 ^ k)) := by
  have positive : 0 < 10 ^ k := Nat.pow_pos (by decide)
  have closer := fun d => closer_roundQuotient positive (m * 2 ^ e) d
  have covers := fun d => @near_or_near m e _ positive d
  rw [nearest?_eq]
  generalize roundQuotient .up (m * 2 ^ e) (10 ^ k) = first at *
  generalize otherNeighbour (m * 2 ^ e) (10 ^ k) = second at *
  by_cases found : Near m e (first * 10 ^ k)
  · rw [if_pos ((holds_interval ..).2 found)]
    refine ⟨?_, nofun⟩
    rintro d ⟨rfl⟩
    exact ⟨found, fun d' _ => closer d'⟩
  · rw [if_neg fun holds => found ((holds_interval ..).1 holds)]
    by_cases found' : Near m e (second * 10 ^ k)
    · rw [if_pos ((holds_interval ..).2 found')]
      refine ⟨?_, nofun⟩
      rintro d ⟨rfl⟩
      exact ⟨found', fun d' near => ((covers d' near).resolve_left found).2⟩
    · rw [if_neg fun holds => found' ((holds_interval ..).1 holds)]
      exact ⟨nofun, fun _ d near => found' ((covers d near).resolve_left found).1⟩

/-! ## 3. The search -/

/-- **The search stops at the first grid with an integer of the double**, at the closest one. -/
theorem search_spec {grids k last : Nat} (within : last < grids) (le : last ≤ k) {d : Nat}
    (near : Near m e (d * 10 ^ (k - last))) :
    ∃ digits found : Nat, (interval m e).search .up grids k = (digits, (found : Int)) ∧
      Closest m e found digits ∧ ∀ k' ≤ k, found < k' → ∀ d', ¬ Near m e (d' * 10 ^ k') := by
  induction grids generalizing k last with
  | zero => exact absurd within (Nat.not_lt_zero _)
  | succ grids ih =>
    obtain ⟨found, missed⟩ := nearest?_spec m e k
    rw [Interval.search]
    cases here : (interval m e).nearest? .up k with
    | some digits => exact ⟨digits, k, rfl, found digits here, fun k' le' more => by omega⟩
    | none =>
      have none := missed here
      cases last with
      | zero => exact absurd near (none d)
      | succ last =>
        obtain ⟨k, rfl⟩ := Nat.exists_eq_succ_of_ne_zero (by omega : k ≠ 0)
        have lower : ((k.succ : Nat) : Int) - 1 = k := by omega
        rw [Nat.succ_sub_succ] at near
        obtain ⟨digits, found, eq, closest, before⟩ :=
          ih (Nat.lt_of_succ_lt_succ within) (Nat.le_of_succ_le_succ le) near
        refine ⟨digits, found, by rw [lower, eq], closest, fun k' le' more => ?_⟩
        rcases Nat.eq_or_lt_of_le le' with rfl | less
        · exact none
        · exact before k' (Nat.le_of_lt_succ less) more

/-- A quotient of as many digits as its power of ten says. -/
theorem decimalLog_eq {num den k : Nat} (positive : 0 < den) (small : den < 10)
    (low : den * 10 ^ k ≤ num) (high : num < den * 10 ^ (k + 1)) : decimalLog num den = k := by
  have one : (decimalDigits den).length = 1 := by
    have atMost : (decimalDigits den).length ≤ 1 :=
      (Nat.length_toDigits_le_iff (by decide) (by decide)).2 (by simpa using small)
    have atLeast := List.length_pos_iff.2 (decimalDigits_ne_nil den)
    omega
  obtain ⟨l, length⟩ := Nat.exists_eq_succ_of_ne_zero
    (List.length_pos_iff.2 (decimalDigits_ne_nil num)).ne'
  have below : num < 10 ^ (l + 1) :=
    (Nat.length_toDigits_le_iff (by decide) (Nat.succ_pos l)).1 length.le
  have above : 10 ^ l ≤ num := by
    rcases Nat.eq_zero_or_pos l with rfl | more
    · exact Nat.le_trans (Nat.mul_pos positive (Nat.pow_pos (by decide))) low
    · refine Nat.le_of_not_lt fun less => ?_
      have shorter : (decimalDigits num).length ≤ l :=
        (Nat.length_toDigits_le_iff (by decide) more).2 less
      omega
  have up : (-(((l + 1 : Nat) : Int) - ((1 : Nat) : Int))).toNat = 0 := by omega
  have down : (((l + 1 : Nat) : Int) - ((1 : Nat) : Int)).toNat = l := by omega
  simp only [decimalLog, one, length, Nat.succ_eq_add_one, up, down, Nat.pow_eq, Nat.pow_zero,
    Nat.mul_one]
  have ordered : ∀ {a b : Nat}, 10 ^ a < 10 ^ b → a < b := fun less =>
    (Nat.pow_lt_pow_iff_right (by decide)).1 less
  have ordered' : ∀ {a b : Nat}, den * 10 ^ a < den * 10 ^ b → a < b := fun less =>
    ordered (Nat.lt_of_mul_lt_mul_left less)
  split
  · rename_i less
    have more : k < l := ordered' (Nat.lt_of_le_of_lt low less)
    have next : 10 ^ l < 10 ^ (k + 2) := by
      have := Nat.mul_le_mul_right (10 ^ (k + 1)) small.le
      rw [Nat.pow_succ 10 (k + 1)]
      omega
    have atMost := ordered next
    omega
  · rename_i atLeast
    have less : l < k + 1 := ordered' (Nat.lt_of_le_of_lt (Nat.not_lt.1 atLeast) high)
    have next : 10 ^ k < 10 ^ (l + 1) :=
      Nat.lt_of_le_of_lt (Nat.le_mul_of_pos_left _ positive) (Nat.lt_of_le_of_lt low below)
    have atMost := ordered next
    omega

/-- **Seventeen digits are enough**: a grid that is so much finer than the double has an integer of
it. -/
theorem exists_near (h : Whole m e) {k : Nat} (fine : 10 ^ (k + 16) ≤ m * 2 ^ e) :
    ∃ d, Near m e (d * 10 ^ k) := by
  obtain ⟨normal, bits, -⟩ := h
  have positive : 0 < 10 ^ k := Nat.pow_pos (by decide)
  obtain ⟨high, low⟩ := roundQuotient_up_bounds positive (m * 2 ^ e)
  have mantissa := Nat.mul_le_mul_right (2 ^ e) (Nat.le_sub_one_of_lt bits)
  rw [Nat.pow_add] at fine
  generalize roundQuotient .up (m * 2 ^ e) (10 ^ k) = d at *
  refine ⟨d, ?_, by omega⟩
  split_ifs with power
  · subst power
    omega
  · omega

/-- **No integer of a double has more digits** than the double, as the next power of ten is a double
itself. -/
theorem Near.lt_power {n k : Nat} (near : Near m e n) (digits : m * 2 ^ e < 10 ^ k)
    (divides : e ≤ k) : n < 10 ^ k := by
  obtain ⟨c, power⟩ : 2 ^ e ∣ 10 ^ k :=
    Nat.dvd_trans (Nat.pow_dvd_pow 2 divides) (pow_dvd_pow_of_dvd (by decide) k)
  have less : m < c := by
    rw [power, Nat.mul_comm] at digits
    exact Nat.lt_of_mul_lt_mul_left digits
  have next := Nat.mul_le_mul_right (2 ^ e) (Nat.succ_le_of_lt less)
  rw [Nat.succ_mul, Nat.mul_comm c, ← power] at next
  have unit : 1 ≤ 2 ^ e := Nat.one_le_two_pow
  have high := near.high
  omega

theorem Near.pos {n : Nat} (near : Near m e n) (h : Whole m e) : 0 < n := by
  have unit : 1 ≤ 2 ^ e := Nat.one_le_two_pow
  have mantissa := Nat.mul_le_mul_right (2 ^ e) h.normal
  have low := near.low
  split_ifs at low <;> omega

/-- **The search finds the closest integer of a double** on the coarsest grid that has one. -/
theorem search_whole (h : Whole m e) (small : e ≤ 12) :
    ∃ digits k : Nat, (interval m e).search .up 17
        (decimalLog (interval m e).value (interval m e).den) = (digits, (k : Int)) ∧
      Closest m e k digits ∧ ∀ j, k < j → ∀ d, ¬ Near m e (d * 10 ^ j) := by
  have large : 2 ^ 52 ≤ m * 2 ^ e := Nat.le_trans h.normal (Nat.le_mul_of_pos_right m (by simp))
  have digits : 15 ≤ Nat.log 10 (m * 2 ^ e) :=
    Nat.le_log_of_pow_le (by decide) (Nat.le_trans (by decide) large)
  have least : 10 ^ Nat.log 10 (m * 2 ^ e) ≤ m * 2 ^ e := Nat.pow_log_le_self 10 (by omega)
  have greatest : m * 2 ^ e < 10 ^ (Nat.log 10 (m * 2 ^ e) + 1) :=
    Nat.lt_pow_succ_log_self (by decide) _
  generalize Nat.log 10 (m * 2 ^ e) = top at *
  have log : decimalLog (interval m e).value (interval m e).den = top := by
    obtain ⟨value, positive, den⟩ := interval_value m e
    rw [value, Nat.mul_comm (m * 2 ^ e)]
    exact decimalLog_eq positive den (Nat.mul_le_mul_left _ least)
      (Nat.mul_lt_mul_of_pos_left greatest positive)
  have within : ∃ last < 17, last ≤ top ∧ ∃ d, Near m e (d * 10 ^ (top - last)) := by
    rcases Nat.lt_or_ge top 17 with few | many
    · refine ⟨top, few, Nat.le_refl _, m * 2 ^ e, ?_⟩
      rw [Nat.sub_self, Nat.pow_zero, Nat.mul_one]
      exact .self m e
    · refine ⟨16, by decide, by omega, exists_near h ?_⟩
      rwa [Nat.sub_add_cancel (by omega : 16 ≤ top)]
  obtain ⟨last, enough, le, d, near⟩ := within
  obtain ⟨digits, k, eq, closest, before⟩ := search_spec enough le near
  refine ⟨digits, k, log ▸ eq, closest, fun j more d' near' => ?_⟩
  rcases Nat.lt_or_ge top j with beyond | inside
  · have power : 10 ^ (top + 1) ≤ 10 ^ j := Nat.pow_le_pow_right (by decide) beyond
    have bound := near'.lt_power greatest (by omega)
    have multiple : 10 ^ j ≤ d' * 10 ^ j :=
      Nat.le_of_dvd (near'.pos h) (Nat.dvd_mul_left ..)
    omega
  · exact before j inside more d' near'

/-- **The search finds the shortest integer of a double.** -/
theorem shortest_of_search {digits k : Nat} (h : Whole m e) (closest : Closest m e k digits)
    (coarsest : ∀ j, k < j → ∀ d, ¬ Near m e (d * 10 ^ j)) : Shortest (digits * 10 ^ k) := by
  have double : ofRatio false (digits * 10 ^ k) 1 = finite false m e :=
    (ofRatio_one_eq_iff h false _).2 closest.near
  have whole : wholeValue (finite false m e) = m * 2 ^ e := by
    simp [wholeValue, truncated?, magnitude, Int.natAbs_mul, Int.natAbs_pow]
  constructor
  · intro a j alike divides
    rw [alike_iff h double] at alike
    rcases Nat.lt_or_ge k j with more | less
    · obtain ⟨d, rfl⟩ := divides
      rw [Nat.mul_comm] at alike
      exact absurd alike (coarsest j more d)
    · exact Nat.dvd_mul_left_of_dvd (Nat.pow_dvd_pow 10 less) digits
  · intro a alike zeros
    obtain ⟨d, rfl⟩ := zeros k (Nat.dvd_mul_left ..)
    rw [alike_iff h double, Nat.mul_comm] at alike
    rw [double, whole, Nat.mul_comm _ d]
    exact closest.closer d alike

/-! ## 4. The text -/

theorem decimalDigits_mul_ten {n : Nat} (positive : 0 < n) :
    decimalDigits (n * 10) = decimalDigits n ++ ['0'] := by
  have large : ¬ n * 10 < 10 := by omega
  rw [decimalDigits, Nat.toDigits_eq_if (by decide), if_neg large,
    Nat.mul_div_cancel n (by decide), Nat.mul_mod_left]
  rfl

/-- A power of ten puts zeros behind the digits. -/
theorem decimalDigits_mul_pow {n : Nat} (positive : 0 < n) (k : Nat) :
    decimalDigits (n * 10 ^ k) = decimalDigits n ++ List.replicate k '0' := by
  induction k with
  | zero => simp
  | succ k ih =>
    rw [Nat.pow_succ, ← Nat.mul_assoc,
      decimalDigits_mul_ten (Nat.mul_pos positive (Nat.pow_pos (by decide))), ih,
      List.append_assoc, List.replicate_succ']

/-- The digits of a number are those that are kept and the zeros that are dropped. -/
theorem dropZeros_append {n : Nat} (positive : 0 < n) : (dropZeros n).1 ≠ [] ∧
    (dropZeros n).1 ++ List.replicate (dropZeros n).2 '0' = decimalDigits n := by
  have parts := List.takeWhile_append_dropWhile (p := (· == '0')) (l := (decimalDigits n).reverse)
  have zeros : (decimalDigits n).reverse.takeWhile (· == '0') =
      List.replicate ((decimalDigits n).reverse.takeWhile (· == '0')).length '0' :=
    List.eq_replicate_of_mem fun c mem => by simpa using List.mem_takeWhile_imp mem
  rw [dropZeros]
  generalize (decimalDigits n).reverse.takeWhile (· == '0') = dropped at *
  generalize (decimalDigits n).reverse.dropWhile (· == '0') = kept at *
  have whole : decimalDigits n = kept.reverse ++ List.replicate dropped.length '0' :=
    calc decimalDigits n
        = (dropped ++ kept).reverse := by rw [parts, List.reverse_reverse]
      _ = kept.reverse ++ dropped.reverse := List.reverse_append
      _ = kept.reverse ++ List.replicate dropped.length '0' := by
        rw [← List.reverse_replicate, ← zeros]
  have nonempty : kept.reverse ≠ [] := by
    intro none
    rw [none, List.nil_append] at whole
    cases count : dropped.length with
    | zero => exact decimalDigits_ne_nil n (by rw [whole, count]; rfl)
    | succ _ => exact head?_decimalDigits positive (by rw [whole, count]; rfl)
  exact ⟨nonempty, by simp [whole]⟩

/-- Digits whose power of ten reaches beyond them write an integer. -/
theorem parts_of_integer {digits k : Nat} (positive : 0 < digits) :
    Scientific.parts ⟨(dropZeros digits).1,
      (k : Int) + (dropZeros digits).2 + (dropZeros digits).1.length - 1⟩ =
        (decimalDigits (digits * 10 ^ k), []) := by
  obtain ⟨nonempty, whole⟩ := dropZeros_append positive
  generalize (dropZeros digits).1 = ds at *
  generalize (dropZeros digits).2 = zeros at *
  have some := List.length_pos_iff.2 nonempty
  have integer : ¬ (k : Int) + zeros + ds.length - 1 < 0 := by omega
  have places : ((k : Int) + zeros + ds.length - 1).toNat + 1 = ds.length + (zeros + k) := by omega
  have all : ds.take (ds.length + (zeros + k)) = ds := List.take_of_length_le (by omega)
  have none : ds.drop (ds.length + (zeros + k)) = [] := List.drop_eq_nil_of_le (by omega)
  rw [Scientific.parts, if_neg integer, decimalDigits_mul_pow positive, ← whole]
  simp only [places, all, none, Nat.add_sub_cancel_left, ← List.replicate_append_replicate,
    List.append_assoc]

/-- **A whole double is written by its shortest integer.** -/
theorem display_whole (h : Whole m e) (small : e ≤ 12) :
    ∃ n, Near m e n ∧ Shortest n ∧
      ∀ negative, display (finite negative m e) = signText negative ++ decimalDigits n := by
  obtain ⟨digits, k, found, closest, coarsest⟩ := search_whole h small
  have positive : 0 < digits := Nat.pos_of_ne_zero fun zero => by
    have := closest.near.pos h
    rw [zero, Nat.zero_mul] at this
    exact Nat.lt_irrefl 0 this
  have nonzero : m ≠ 0 := (Nat.lt_of_lt_of_le (Nat.two_pow_pos 52) h.normal).ne'
  refine ⟨_, closest.near, shortest_of_search h closest coarsest, fun negative => ?_⟩
  simp only [display, if_neg nonzero, shortest, found, parts_of_integer positive]
  simp

end Stencil.Binary64
