/-
# Decimal texts of doubles

A decimal is `± digits · 10 ^ exponent`.  Reading takes the double nearest to a decimal.  Writing
goes the other way: `shortest` finds the fewest digits that read back to the double, and of these
the ones nearest to it, by looking at the two neighbours of the double on the grid of 1, 2, … 17
digits, in exact arithmetic.

Three layouts use those digits, or the exact value: `display` never writes an exponent, `fixed`
writes a given number of decimal places, and `Stencil.Json` has its own.  Of two shortest decimals
that are equally near, `display` takes the upper one and JSON the even one.
-/
import Stencil.Number.Binary64
import Stencil.Text.Digit

namespace Stencil

/-- The number `± digits · 10 ^ exponent`. -/
structure Decimal where
  negative : Bool
  digits : Nat
  exponent : Int
  deriving DecidableEq, Repr

namespace Decimal

open Stencil.Text

/-! ## 1. From decimals to doubles -/

/-- The double nearest to a decimal.  Beyond `10 ^ 310` all are infinite and below `10 ^ -330` all
are zero, so the exponents that are computed with stay small. -/
def toBinary64 (x : Decimal) : Binary64 :=
  let size := (decimalDigits x.digits).length + x.exponent
  if x.digits = 0 || size < -330 then Binary64.ofRatio x.negative 0 1
  else if 310 < size then .infinite x.negative
  else
    Binary64.ofRatio x.negative (x.digits * Nat.pow 10 x.exponent.toNat)
      (Nat.pow 10 (-x.exponent).toNat)

/-- The sign in front of a numeral, and the rest. -/
def readSign : List Char → Bool × List Char
  | '-' :: cs => (true, cs)
  | '+' :: cs => (false, cs)
  | cs => (false, cs)

/-- The exponent part of a numeral, up to its end: nothing, or `e`, a sign and digits. -/
def readExponent : List Char → Option Int
  | [] => some 0
  | c :: cs =>
    if c == 'e' || c == 'E' then
      let (negative, ds) := readSign cs
      if ds.isEmpty || !ds.all Char.isDigit then none
      else some (if negative then -(digitsValue ds : Int) else digitsValue ds)
    else none

/-- The decimal written by digits with an optional point and exponent: `12`, `1.5`, `.5`, `5.`,
`2e-3`. -/
def readUnsigned (negative : Bool) (cs : List Char) : Option Decimal :=
  let whole := cs.takeWhile Char.isDigit
  let rest := cs.dropWhile Char.isDigit
  let (fraction, rest) := match rest with
    | '.' :: rest => (rest.takeWhile Char.isDigit, rest.dropWhile Char.isDigit)
    | rest => ([], rest)
  if whole.isEmpty && fraction.isEmpty then none
  else do
    let exponent ← readExponent rest
    some ⟨negative, digitsValue (whole ++ fraction), exponent - fraction.length⟩

end Decimal

/-- A text compared with a word of lower-case ASCII letters, without regard to case. -/
def isWord (word : String) (cs : List Char) : Bool := cs.map Char.toLower == word.toList

/-- The double nearest to the number a text writes; also `inf`, `infinity` and `nan`, in any case
and with a sign. -/
def Binary64.read? (cs : List Char) : Option Binary64 :=
  let (negative, rest) := Decimal.readSign cs
  if isWord "inf" rest || isWord "infinity" rest then some (.infinite negative)
  else if isWord "nan" rest then some .nan
  else (Decimal.readUnsigned negative rest).map Decimal.toBinary64

/-- The signed integer of 64 bits that a text writes: digits with an optional sign. -/
def readInteger? (cs : List Char) : Option Int :=
  let (negative, ds) := Decimal.readSign cs
  if ds.isEmpty || !ds.all Char.isDigit then none
  else
    let i : Int := if negative then -(Text.digitsValue ds : Int) else Text.digitsValue ds
    if Binary64.leastInteger ≤ i && i ≤ Binary64.greatestInteger then some i else none

namespace Binary64

open Stencil.Text

/-! ## 2. The shortest decimal of a double -/

/-- The numbers that round to a double: from `low / den` to `high / den`, the ends included when
the mantissa is even. -/
structure Interval where
  low : Nat
  value : Nat
  high : Nat
  den : Nat
  closed : Bool

/-- The interval of a finite double.  Below a power of two the doubles lie twice as close, so its
lower half is half as wide. -/
def interval (mantissa : Nat) (exponent : Int) : Interval :=
  let (n, d) := magnitude 1 (exponent - 2)
  let narrow := mantissa == Nat.pow 2 52 && exponent != leastExponent
  { low := (4 * mantissa - if narrow then 1 else 2) * n
    value := 4 * mantissa * n
    high := (4 * mantissa + 2) * n
    den := d
    closed := mantissa % 2 == 0 }

/-- The number `digits · 10 ^ k` lies in an interval. -/
def Interval.holds (i : Interval) (digits : Nat) (k : Int) : Bool :=
  let x := digits * Nat.pow 10 k.toNat * i.den
  let p := Nat.pow 10 (-k).toNat
  if i.closed then i.low * p ≤ x && x ≤ i.high * p else i.low * p < x && x < i.high * p

/-- The greatest `k` with `10 ^ k ≤ num / den`, for a positive quotient. -/
def decimalLog (num den : Nat) : Int :=
  let k : Int := ((decimalDigits num).length : Int) - (decimalDigits den).length
  if num * Nat.pow 10 (-k).toNat < den * Nat.pow 10 k.toNat then k - 1 else k

/-- The number in the interval nearest to its value among the multiples of `10 ^ k`, if there is
one. -/
def Interval.nearest? (tie : Tie) (i : Interval) (k : Int) : Option Nat :=
  let num := i.value * Nat.pow 10 (-k).toNat
  let den := i.den * Nat.pow 10 k.toNat
  let down := num / den
  let first := roundQuotient tie num den
  let second := if first = down then down + 1 else down
  if i.holds first k then some first
  else if i.holds second k then some second
  else none

/-- The first grid from `10 ^ k` downwards on which the interval has a point. -/
def Interval.search (tie : Tie) (i : Interval) : (grids : Nat) → (k : Int) → Nat × Int
  | 0, k => (i.value * Nat.pow 10 (-k).toNat / (i.den * Nat.pow 10 k.toNat), k)
  | grids + 1, k =>
    match i.nearest? tie k with
    | some digits => (digits, k)
    | none => i.search tie grids (k - 1)

/-- The digits of a number without the zeros at its end, and how many those were. -/
def dropZeros (digits : Nat) : List Char × Nat :=
  let ds := decimalDigits digits
  let kept := (ds.reverse.dropWhile (· == '0')).reverse
  (kept, ds.length - kept.length)

/-- Significant digits and the power of ten of the first one: `d.ddd · 10 ^ exponent`. -/
structure Scientific where
  digits : List Char
  exponent : Int

/-- The shortest digits of a finite double that is not zero. -/
def shortest (tie : Tie) (mantissa : Nat) (exponent : Int) : Scientific :=
  let i := interval mantissa exponent
  let (digits, k) := i.search tie 17 (decimalLog i.value i.den)
  let (ds, zeros) := dropZeros digits
  ⟨ds, k + zeros + ds.length - 1⟩

/-! ## 3. Layouts -/

/-- Digits with the point where the exponent puts it: before it the whole part, after it the
fractional part, which is empty for a whole number. -/
def Scientific.parts (x : Scientific) : List Char × List Char :=
  if x.exponent < 0 then (['0'], List.replicate (-x.exponent - 1).toNat '0' ++ x.digits)
  else
    let n := x.exponent.toNat + 1
    (x.digits.take n ++ List.replicate (n - x.digits.length) '0', x.digits.drop n)

/-- The sign of a numeral. -/
def signText (negative : Bool) : List Char := if negative then ['-'] else []

/-- A double without an exponent: the shortest digits, a tie going up, and no point for a whole
number. -/
def display : Binary64 → List Char
  | nan => ['N', 'a', 'N']
  | infinite negative => signText negative ++ ['i', 'n', 'f']
  | finite negative m e =>
    signText negative ++
      if m = 0 then ['0']
      else
        let (whole, fraction) := (shortest .up m e).parts
        if fraction.isEmpty then whole else whole ++ '.' :: fraction

/-- A double with a given number of decimal places, its exact value rounded to the nearest, a tie
to the even last digit. -/
def fixed (places : Nat) : Binary64 → List Char
  | finite negative m e =>
    let (n, d) := magnitude m e
    let ds := decimalDigits (roundQuotient .even (n * Nat.pow 10 places) d)
    let ds := List.replicate (places + 1 - ds.length) '0' ++ ds
    let whole := ds.take (ds.length - places)
    signText negative ++
      if places = 0 then whole else whole ++ '.' :: ds.drop (ds.length - places)
  | x => x.display

end Binary64

end Stencil
