/-
# Integers in argument lists

An integer may stand in an argument list by itself or as an item of a list.  The numeral is the
same, but its readers differ: an item is read as JSON, which knows the integers of 64 bits with a
sign and without one, and a bare slot knows those with a sign and leaves the others to the doubles.

* `Binary64.read?_integerText`: a numeral is read as the double nearest to its integer;
* `Value.ofBinary64_ofInt`: from a limit on that double does not become an integer again;
* `readList_integer_iff`: so an item is always the integer, and a bare slot exactly below `2 ^ 63`.
-/
import Stencil.Proofs.Nearest
import Stencil.Proofs.Relaxed

namespace Stencil

open Stencil.Text Stencil.Depth

/-! ## 1. Numerals as doubles -/

theorem readUnsigned_digits (negative : Bool) (n : Nat) :
    Decimal.readUnsigned negative (decimalDigits n) = some ⟨negative, n, 0⟩ := by
  have digits : ∀ c ∈ decimalDigits n, c.isDigit = true := fun _ mem =>
    isDigit_of_mem_decimalDigits mem
  have run : (decimalDigits n).takeWhile Char.isDigit = decimalDigits n :=
    List.takeWhile_eq_self_iff.2 digits
  have rest : (decimalDigits n).dropWhile Char.isDigit = [] := List.dropWhile_eq_nil_iff.2 digits
  simp [Decimal.readUnsigned, run, rest, decimalDigits_ne_nil, Decimal.readExponent,
    digitsValue_decimalDigits]

theorem toLower_of_isDigit {c : Char} (digit : c.isDigit = true) : c.toLower = c := by
  have noUpper : ¬ (c.val ≥ 'A'.val ∧ c.val ≤ 'Z'.val) := by grind [Char.isDigit]
  rw [Char.toLower, dif_neg noUpper]

/-- Digits do not write a word that has a letter. -/
theorem isWord_decimalDigits (word : String) {c : Char} (mem : c ∈ word.toList)
    (letter : c.isDigit = false) (n : Nat) : isWord word (decimalDigits n) = false := by
  have lower : (decimalDigits n).map Char.toLower = decimalDigits n := by
    rw [List.map_congr_left fun _ mem => toLower_of_isDigit (isDigit_of_mem_decimalDigits mem),
      List.map_id']
  rw [isWord, lower, beq_eq_false_iff_ne]
  intro same
  rw [← same] at mem
  exact ne_of_class (isDigit_of_mem_decimalDigits mem) letter rfl

/-- A decimal without an exponent is an integer. -/
theorem Decimal.toBinary64_integer (negative : Bool) {n : Nat}
    (short : (decimalDigits n).length ≤ 310) :
    toBinary64 ⟨negative, n, 0⟩ = Binary64.ofRatio negative n 1 := by
  rcases Nat.eq_zero_or_pos n with rfl | positive
  · rfl
  · have low : ¬ ((decimalDigits n).length : Int) + 0 < -330 := by omega
    have high : ¬ 310 < ((decimalDigits n).length : Int) + 0 := by omega
    simp only [toBinary64, positive.ne', low, high, decide_false, Bool.or_self, Bool.false_eq_true,
      if_false]
    simp

/-- **A numeral is read as the double nearest to its integer.** -/
theorem Binary64.read?_integerText {i : Int} (short : (decimalDigits i.natAbs).length ≤ 310) :
    Binary64.read? (Json.integerText i) = some (ofInt i) := by
  have noInf := isWord_decimalDigits "inf" (c := 'i') (by decide) (by decide) i.natAbs
  have noInfinity := isWord_decimalDigits "infinity" (c := 'i') (by decide) (by decide) i.natAbs
  have noNan := isWord_decimalDigits "nan" (c := 'n') (by decide) (by decide) i.natAbs
  simp only [read?, readSign_integerText, noInf, noInfinity, noNan, readUnsigned_digits,
    Bool.or_self, Bool.false_eq_true, if_false, Option.map_some,
    Decimal.toBinary64_integer _ short]
  rfl

/-! ## 2. Doubles as values -/

/-- **Below the limit a double of an integer becomes the integer again**, from there on it stays a
double. -/
theorem Value.ofBinary64_ofInt {i : Int} (fits : i.natAbs < 2 ^ 64) :
    ofBinary64 (Binary64.ofInt i) =
      if i.natAbs < integerLimit then .ofInt i else .number (.float (Binary64.ofInt i)) := by
  obtain ⟨m, e, w, d, double, quotient, positive, bounds⟩ := Binary64.ofRatio_one_whole fits
  have limit : integerLimit < 2 ^ 53 := by decide
  have whole : (Binary64.ofInt i).isWhole = true := by
    rw [Binary64.ofInt, (double _).1]
    simp [Binary64.isWhole, quotient]
  have finite : (Binary64.ofInt i).isFinite = true := by
    rw [Binary64.ofInt, (double _).1]
    rfl
  have below : (Binary64.ofInt i).magnitudeBelow integerLimit =
      decide (i.natAbs < integerLimit) := by
    rw [Binary64.ofInt, (double _).1]
    simp only [Binary64.magnitudeBelow, quotient, Nat.mul_lt_mul_right positive]
    exact decide_eq_decide.2 (by omega)
  rw [ofBinary64, whole, below, finite]
  simp only [Bool.true_and, decide_eq_true_eq, if_true]
  split
  · rw [Binary64.toInteger_ofInt (by omega)]
  · rfl

/-! ## 3. Integers in slots -/

/-- The reader of integers with a sign refuses the others. -/
theorem readInteger?_eq_none {i : Int} (high : Binary64.greatestInteger < i) :
    readInteger? (Json.integerText i) = none := by
  have beyond : ¬ i ≤ Binary64.greatestInteger := by omega
  simp only [readInteger?, readSign_integerText, digitsValue_decimalDigits, sign_natAbs, beyond,
    decide_false, Bool.and_false, Bool.false_eq_true, if_false, ite_self]

/-- **A bare slot takes an integer from `2 ^ 63` on for a double.** -/
theorem number?_integerText_of_lt {i : Int} (high : Binary64.greatestInteger < i)
    (fits : Number.isInteger i = true) :
    Slot.number? (Json.integerText i) = some (.number (.float (Binary64.ofInt i))) := by
  simp only [Number.isInteger, Bool.and_eq_true, decide_eq_true_eq, Nat.pow_eq] at fits
  have beyond : (2 : Int) ^ 63 - 1 < i := high
  have small : i.natAbs < 2 ^ 64 := by omega
  have digits : (decimalDigits i.natAbs).length ≤ 20 :=
    (Nat.length_toDigits_le_iff (by decide) (by decide)).2 (Nat.lt_trans small (by norm_num))
  have limit : Value.integerLimit < 2 ^ 53 := by decide
  have large : ¬ i.natAbs < Value.integerLimit := by omega
  simp only [Slot.number?, isNumeral_integerText, if_true, readInteger?_eq_none high,
    Binary64.read?_integerText (Nat.le_trans digits (by decide)), Option.map_none,
    Option.map_some, Value.ofBinary64_ofInt small, if_neg large]
  rfl

namespace Slot

/-- A bare word is the only slot of its list. -/
theorem readList_bare {word : List Char} (nonempty : word ≠ [])
    (bare : ∀ c ∈ word, isBare c = true) : readList word = [ofToken word] := by
  obtain ⟨c, mem⟩ := List.exists_mem_of_ne_nil word nonempty
  have free : ∀ c ∈ word, isBracket c = false := fun c mem => isBracket_of_isBare (bare c mem)
  have cutOff : cut word = (word, []) := by
    simpa [Written.Gap.none] using
      cut_bare .none .none bare (Or.inr ⟨rfl, rfl⟩ : Follows [] [])
  rw [readList_of_visible ⟨c, mem, isBlank_of_isBare (bare c mem)⟩,
    (enclosed_of_free free).markBrackets_eq, marked_of_free free,
    Written.readMarked_of_cut nonempty cutOff, readMarked_nil]

theorem readList_numeral {i : Int} {v : Value} (reads : number? (Json.integerText i) = some v) :
    readList (Json.integerText i) = [some v] := by
  have nonempty : Json.integerText i ≠ [] := by simp [Json.integerText, decimalDigits_ne_nil]
  rw [readList_bare nonempty (isBare_integerText i), Written.ofToken_numeral reads]

/-- The list of one integer is read as JSON. -/
theorem readList_singleton {i : Int} (fits : Number.isInteger i = true) :
    readList ('[' :: (Json.integerText i ++ [']'])) = [some (.array [.ofInt i])] := by
  have plain : (Value.array [.ofInt i]).Plain (fun _ => True) 1 := by
    refine .array fun v mem => ?_
    rw [List.mem_singleton.1 mem]
    exact .integer 0 fits
  have text : Json.text (.array [.ofInt i]) = '[' :: (Json.integerText i ++ [']']) := by
    simp [Json.text, Json.itemsText, Json.numberText, Value.ofInt]
  refine readList_literal (enclosed_integerText i) (Or.inr rfl) (Written.literal_read?_of_json ?_)
  rw [← text]
  exact Json.read?_text (plain.mono (by decide))

end Slot

/-- **An item of a list is always the integer that is written; a bare slot is it exactly below
`2 ^ 63`.**  From there on the slot is a double. -/
theorem readList_integer_iff {i : Int} (fits : Number.isInteger i = true) :
    Slot.readList ('[' :: (Json.integerText i ++ [']'])) = [some (.array [.ofInt i])] ∧
      (Slot.readList (Json.integerText i) = [some (.ofInt i)] ↔ i ≤ Binary64.greatestInteger) ∧
      (Binary64.greatestInteger < i →
        Slot.readList (Json.integerText i) = [some (.number (.float (Binary64.ofInt i)))]) := by
  have above (high : Binary64.greatestInteger < i) :
      Slot.readList (Json.integerText i) = [some (.number (.float (Binary64.ofInt i)))] :=
    Slot.readList_numeral (number?_integerText_of_lt high fits)
  refine ⟨Slot.readList_singleton fits, ⟨fun same => ?_, fun below => ?_⟩, above⟩
  · by_contra high
    rw [above (Int.not_le.1 high)] at same
    simp [Value.ofInt] at same
  · simp only [Number.isInteger, Bool.and_eq_true, decide_eq_true_eq] at fits
    exact Slot.readList_numeral (number?_integerText fits.1 below)

/-- The ends of the range. -/
theorem readList_integer_ends :
    (Number.isInteger (-2 ^ 63) = true ∧
      Slot.readList "-9223372036854775808".toList = [some (.ofInt (-2 ^ 63))]) ∧
    (Number.isInteger (2 ^ 64 - 1) = true ∧
      Slot.readList "[18446744073709551615]".toList = [some (.array [.ofInt (2 ^ 64 - 1)])] ∧
      Slot.readList "18446744073709551615".toList =
        [some (.number (.float (.finite false (2 ^ 52) 12)))]) := by
  have least : Number.isInteger (-2 ^ 63) = true := by decide
  have greatest : Number.isInteger (2 ^ 64 - 1) = true := by decide
  have rounded : Binary64.ofInt (2 ^ 64 - 1) = .finite false (2 ^ 52) 12 := by decide +kernel
  obtain ⟨item, -, bare⟩ := readList_integer_iff greatest
  refine ⟨⟨least, (readList_integer_iff least).2.1.2 (by decide)⟩, greatest, item, ?_⟩
  rw [← rounded]
  exact bare (by decide)

/-- `2 ^ 63` alone is a double, and an integer in a list. -/
theorem bare_overflows :
    Slot.readList "9223372036854775808".toList =
        [some (.number (.float (.finite false (2 ^ 52) 11)))] ∧
      Slot.readList "[9223372036854775808]".toList = [some (.array [.ofInt (2 ^ 63)])] := by
  have fits : Number.isInteger (2 ^ 63) = true := by decide
  have rounded : Binary64.ofInt (2 ^ 63) = .finite false (2 ^ 52) 11 := by decide +kernel
  constructor
  · rw [← rounded]
    exact Slot.readList_numeral (number?_integerText_of_lt (by decide) fits)
  · exact Slot.readList_singleton fits

end Stencil
