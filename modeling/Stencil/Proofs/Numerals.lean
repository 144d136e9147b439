/-
# Numerals of integers

An integer in decimal, as it is written (`Json.integerText`), and its two readers: the one of bare
slots, which takes the integers of 64 bits with a sign, and the one of JSON, which also takes those
without a sign.  Both give the integer back.

A significand of JSON is gathered digit by digit as long as it fits, and an integer that is written
in full fits at each digit (`readSignificand_append`).
-/
import Mathlib
import Stencil.Argument.Slot
import Stencil.Json.Printer
import Stencil.Proofs.Written

namespace Stencil

open Stencil.Text

/-! ## 1. Decimal digits -/

theorem isDigit_of_mem_decimalDigits {n : Nat} {c : Char} (h : c ∈ decimalDigits n) :
    c.isDigit = true :=
  Nat.isDigit_of_mem_toDigits (by decide) (by decide) h

theorem decimalDigits_ne_nil (n : Nat) : decimalDigits n ≠ [] := Nat.toDigits_ne_nil

theorem digitsValue_decimalDigits (n : Nat) : digitsValue (decimalDigits n) = n :=
  Nat.ofDigitChars_ten_toDigits

theorem decimalDigits_injective {m n : Nat} (h : decimalDigits m = decimalDigits n) : m = n := by
  rw [← digitsValue_decimalDigits m, h, digitsValue_decimalDigits]

theorem covers_first {first last n : Nat} (low : first ≤ n) (high : n ≤ last) (rest : Ranges) :
    Ranges.covers ((first, last) :: rest) n = true := by
  simp [Ranges.covers, Nat.not_lt.2 low, high]

/-- An ASCII digit is a digit of some script. -/
theorem isDecimal_of_isDigit {c : Char} (h : c.isDigit = true) : isDecimal c = true := by
  simp only [Char.isDigit, Bool.and_eq_true, decide_eq_true_eq] at h
  have bounds : 48 ≤ c.toNat ∧ c.toNat ≤ 57 := h
  exact covers_first bounds.1 bounds.2 _

theorem isDecimal_of_mem_decimalDigits {n : Nat} {c : Char} (h : c ∈ decimalDigits n) :
    isDecimal c = true :=
  isDecimal_of_isDigit (isDigit_of_mem_decimalDigits h)

theorem isDecimal_percent : isDecimal '%' = false := by decide

/-- Digits of any script, at least one. -/
def Digits (ds : List Char) : Prop := ds ≠ [] ∧ ∀ c ∈ ds, isDecimal c = true

instance : DecidablePred Digits := fun ds =>
  inferInstanceAs (Decidable (ds ≠ [] ∧ ∀ c ∈ ds, isDecimal c = true))

theorem digits_decimalDigits (n : Nat) : Digits (decimalDigits n) :=
  ⟨decimalDigits_ne_nil n, fun _ mem => isDecimal_of_mem_decimalDigits mem⟩

theorem Digits.not_mem {ds : List Char} (h : Digits ds) {c : Char} (other : isDecimal c = false) :
    c ∉ ds := fun mem => ne_of_class (h.2 c mem) other rfl

theorem isWord_of_isDigit {c : Char} (h : c.isDigit = true) : Grammar.isWord c = true := by
  simp [Grammar.isWord, Char.isAlphanum, h]

theorem takeWhile_digits (n : Nat) {cs : List Char} (h : Stops isDecimal cs) :
    (decimalDigits n ++ cs).takeWhile isDecimal = decimalDigits n :=
  takeWhile_append_of_stops (fun _ mem => isDecimal_of_mem_decimalDigits mem) h

theorem dropWhile_digits (n : Nat) {cs : List Char} (h : Stops isDecimal cs) :
    (decimalDigits n ++ cs).dropWhile isDecimal = cs := by
  rw [List.dropWhile_append_of_pos fun _ mem => isDecimal_of_mem_decimalDigits mem,
    dropWhile_of_stops h]

/-- Only the numeral of zero starts with a zero. -/
theorem head?_decimalDigits {n : Nat} (positive : 0 < n) :
    (decimalDigits n).head? ≠ some '0' := by
  induction n using Nat.strong_induction_on with
  | _ n ih =>
    unfold decimalDigits at ih ⊢
    rw [Nat.toDigits_eq_if (by decide)]
    split
    · rename_i small
      interval_cases n <;> decide
    · rename_i large
      have shorter := ih (n / 10) (by omega) (by omega)
      cases front : Nat.toDigits 10 (n / 10) with
      | nil => exact absurd front Nat.toDigits_ne_nil
      | cons c front' => simpa [front] using shorter

/-! ## 2. Integers in slots -/

theorem readSign_digits {ds : List Char} (digits : ∀ c ∈ ds, c.isDigit = true) :
    Decimal.readSign ds = (false, ds) := by
  unfold Decimal.readSign
  split
  · exact absurd (digits '-' (List.mem_cons_self ..)) (by decide)
  · exact absurd (digits '+' (List.mem_cons_self ..)) (by decide)
  · rfl

theorem readSign_integerText (i : Int) :
    Decimal.readSign (Json.integerText i) = (decide (i < 0), decimalDigits i.natAbs) := by
  unfold Json.integerText Binary64.signText
  by_cases negative : i < 0
  · simp [negative, Decimal.readSign]
  · simp [negative, readSign_digits fun _ mem => isDigit_of_mem_decimalDigits mem]

theorem mem_integerText {i : Int} {c : Char} (mem : c ∈ Json.integerText i) :
    c = '-' ∨ c.isDigit = true := by
  unfold Json.integerText Binary64.signText at mem
  rcases List.mem_append.1 mem with sign | digit
  · split at sign
    · exact Or.inl (List.mem_singleton.1 sign)
    · exact absurd sign List.not_mem_nil
  · exact Or.inr (isDigit_of_mem_decimalDigits digit)

/-- The integer of a sign and an absolute value. -/
theorem sign_natAbs (i : Int) :
    (if decide (i < 0) = true then -(i.natAbs : Int) else i.natAbs) = i := by
  by_cases negative : i < 0
  · simp only [negative, decide_true, if_true]
    omega
  · simp only [negative, decide_false, Bool.false_eq_true, if_false]
    omega

theorem readInteger?_integerText {i : Int} (low : Binary64.leastInteger ≤ i)
    (high : i ≤ Binary64.greatestInteger) : readInteger? (Json.integerText i) = some i := by
  have digits : (decimalDigits i.natAbs).all Char.isDigit = true :=
    List.all_eq_true.2 fun _ mem => isDigit_of_mem_decimalDigits mem
  simp only [readInteger?, readSign_integerText, digits, digitsValue_decimalDigits, sign_natAbs]
  simp [decimalDigits_ne_nil, low, high]

theorem isNumeral_integerText (i : Int) : Slot.isNumeral (Json.integerText i) = true := by
  have whole : (decimalDigits i.natAbs).takeWhile (fun c => c != 'e' && c != 'E') =
      decimalDigits i.natAbs := by
    rw [List.takeWhile_eq_self_iff]
    intro c mem
    have digit := isDigit_of_mem_decimalDigits mem
    simp [ne_of_class digit (by decide : Char.isDigit 'e' = false),
      ne_of_class digit (by decide : Char.isDigit 'E' = false)]
  have run := takeWhile_digits i.natAbs (by simp [Stops] : Stops isDecimal [])
  have rest := dropWhile_digits i.natAbs (by simp [Stops] : Stops isDecimal [])
  rw [List.append_nil] at run rest
  simp [Slot.isNumeral, readSign_integerText, whole, Slot.isSignificand, run, rest,
    decimalDigits_ne_nil]

/-- **A bare slot with the numeral of an integer holds that integer.** -/
theorem number?_integerText {i : Int} (low : Binary64.leastInteger ≤ i)
    (high : i ≤ Binary64.greatestInteger) :
    Slot.number? (Json.integerText i) = some (Value.ofInt i) := by
  simp [Slot.number?, isNumeral_integerText, readInteger?_integerText low high]

/-! ## 3. Integers in JSON -/

namespace Json

theorem le_foldl_digits (ds : List Char) (start : Nat) :
    start ≤ ds.foldl (fun n c => 10 * n + digitValue c) start := by
  induction ds generalizing start with
  | nil => exact Nat.le_refl start
  | cons c ds ih =>
    have := ih (10 * start + digitValue c)
    rw [List.foldl_cons]
    omega

/-- Digits are read into a significand as long as the number that they write fits. -/
theorem readSignificand_append {ds rest : List Char} (digits : ∀ c ∈ ds, c.isDigit = true)
    (stops : Stops Char.isDigit rest) {start : Nat}
    (fits : ds.foldl (fun n c => 10 * n + digitValue c) start ≤ significandLimit) :
    readSignificand start (ds ++ rest) =
      (ds.foldl (fun n c => 10 * n + digitValue c) start, rest) := by
  induction ds generalizing start with
  | nil =>
    cases rest with
    | nil => rfl
    | cons c rest => simp [readSignificand, stops_cons.1 stops]
  | cons c ds ih =>
    obtain ⟨digit, digits⟩ := List.forall_mem_cons.1 digits
    rw [List.foldl_cons] at fits
    have room : 10 * start + digitValue c ≤ significandLimit :=
      Nat.le_trans (le_foldl_digits ds _) fits
    rw [List.cons_append, readSignificand, digit, decide_eq_true room, Bool.and_self, if_pos rfl,
      ih digits fits, List.foldl_cons]

/-- A character that a number goes on with. -/
def inNumber (c : Char) : Bool := c.isDigit || c == '.' || c == 'e' || c == 'E'

theorem not_digit_of_stops {rest : List Char} (h : Stops inNumber rest) :
    Stops Char.isDigit rest := by
  intro c first
  have := h c first
  simp only [inNumber, Bool.or_eq_false_iff] at this
  exact this.1.1.1

/-- A whole part that fits is read as a whole. -/
theorem readNumber_digits (negative : Bool) {n : Nat} (fits : n ≤ significandLimit)
    {rest : List Char} (stops : Stops inNumber rest) :
    readNumber negative (decimalDigits n ++ rest) = readNumber.afterWhole negative n rest := by
  have noDigit := not_digit_of_stops stops
  rcases Nat.eq_zero_or_pos n with rfl | positive
  · have zero : decimalDigits 0 = ['0'] := rfl
    cases rest with
    | nil => rfl
    | cons c rest => simp [zero, readNumber, stops_cons.1 noDigit]
  · cases first : decimalDigits n with
    | nil => exact absurd first (decimalDigits_ne_nil n)
    | cons c ds =>
      have other : c ≠ '0' := by simpa [first] using head?_decimalDigits positive
      have digits : ∀ d ∈ c :: ds, d.isDigit = true := by
        rw [← first]
        exact fun d => isDigit_of_mem_decimalDigits
      obtain ⟨digit, digits⟩ := List.forall_mem_cons.1 digits
      have value : ds.foldl (fun n c => 10 * n + digitValue c) (digitValue c) = n := by
        have whole := digitsValue_decimalDigits n
        rw [first] at whole
        simpa [digitsValue] using whole
      have gathered : readSignificand (digitValue c) (ds ++ rest) = (n, rest) := by
        rw [readSignificand_append digits noDigit (value.symm ▸ fits), value]
      have more : rest.takeWhile Char.isDigit = [] := by
        cases rest with
        | nil => rfl
        | cons d rest => simp [stops_cons.1 noDigit]
      rw [List.cons_append, readNumber]
      · simp [digit, gathered, more]
      · simp [other]

theorem afterWhole_eq (negative : Bool) (n : Nat) {rest : List Char}
    (stops : Stops inNumber rest) : readNumber.afterWhole negative n rest =
      if !negative then .ok (Value.ofInt n, rest)
      else if n = 0 || Nat.pow 2 63 < n then
        .ok (.number (.float (Binary64.ofInt n).neg), rest)
      else .ok (Value.ofInt (-n), rest) := by
  cases rest with
  | nil => rfl
  | cons c rest =>
    have other := stops_cons.1 stops
    simp only [inNumber, Bool.or_eq_false_iff, beq_eq_false_iff_ne] at other
    unfold readNumber.afterWhole
    split
    · simp_all
    · simp_all
    · simp_all
    · rfl

theorem skipSpace_of_stops {cs : List Char} (h : Stops isSpace cs) : skipSpace cs = cs :=
  dropWhile_of_stops h

theorem readValue_digit (depth : Nat) {c : Char} (digit : c.isDigit = true) (cs : List Char) :
    readValue depth (c :: cs) = readNumber false (c :: cs) := by
  have noSpace : isSpace c = false := by
    have other : ∀ d, Char.isDigit d = false → c ≠ d := fun d => ne_of_class digit
    simp [isSpace, other ' ' (by decide), other '\n' (by decide), other '\t' (by decide),
      other '\r' (by decide)]
  have skipped : skipSpace (c :: cs) = c :: cs := skipSpace_of_stops (stops_cons.2 noSpace)
  unfold readValue
  rw [skipped]
  split <;> simp_all

/-- **The numeral of an integer is read as that integer**, in front of anything that does not go on
with it. -/
theorem readValue_integerText (depth : Nat) {i : Int} (fits : Number.isInteger i = true)
    {rest : List Char} (stops : Stops inNumber rest) :
    readValue depth (integerText i ++ rest) = .ok (Value.ofInt i, rest) := by
  simp only [Number.isInteger, Bool.and_eq_true, decide_eq_true_eq] at fits
  have bounds : Nat.pow 2 63 = 9223372036854775808 ∧ Nat.pow 2 64 = 18446744073709551616 :=
    ⟨rfl, rfl⟩
  simp only [bounds] at fits
  have small : i.natAbs ≤ significandLimit := by
    simp only [significandLimit, bounds]
    omega
  by_cases negative : i < 0
  · have sign : integerText i ++ rest = '-' :: (decimalDigits i.natAbs ++ rest) := by
      simp [integerText, Binary64.signText, negative]
    have minus : ∀ cs, readValue depth ('-' :: cs) = readNumber true cs := by
      intro cs
      unfold readValue
      rfl
    have inside : (i.natAbs = 0 || Nat.pow 2 63 < i.natAbs) = false := by
      simp only [bounds, Bool.or_eq_false_iff, decide_eq_false_iff_not]
      omega
    have value : -(i.natAbs : Int) = i := by omega
    rw [sign, minus, readNumber_digits true small stops, afterWhole_eq true _ stops]
    simp only [Bool.not_true, Bool.false_eq_true, if_false, inside, value]
  · have noSign : integerText i = decimalDigits i.natAbs := by
      simp [integerText, Binary64.signText, negative]
    have value : (i.natAbs : Int) = i := by omega
    have number : readValue depth (decimalDigits i.natAbs ++ rest) =
        readNumber false (decimalDigits i.natAbs ++ rest) := by
      cases first : decimalDigits i.natAbs with
      | nil => exact absurd first (decimalDigits_ne_nil _)
      | cons c ds =>
        have digit : c.isDigit = true :=
          isDigit_of_mem_decimalDigits (first ▸ @List.mem_cons_self _ c ds)
        exact readValue_digit depth digit _
    rw [noSign, number, readNumber_digits false small stops, afterWhole_eq false _ stops]
    simp only [Bool.not_false, if_true, value]

end Json

end Stencil
