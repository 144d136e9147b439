/-
# Binary floating point with 53 bits

The doubles as exact numbers: a finite double is `± mantissa · 2 ^ exponent`.  All arithmetic is
done on exact quotients of natural numbers and rounded once, by `ofRatio`, to the nearest double, a
tie going to the even mantissa.  So every operation computes in the logic, and a statement about a
double is one about natural numbers.

A finite double is *canonical*: its mantissa is below `2 ^ 53`, and either at least `2 ^ 52` or at
the least exponent, `-1074`.  `ofRatio` gives canonical doubles only, so equal numbers of equal sign
are equal as data.
-/

namespace Stencil

/-- A double: not a number, an infinity, or `± mantissa · 2 ^ exponent`. -/
inductive Binary64
  | nan
  | infinite (negative : Bool)
  | finite (negative : Bool) (mantissa : Nat) (exponent : Int)
  deriving DecidableEq, Repr

namespace Binary64

/-! ## 1. Rounding -/

/-- Where a number goes that lies halfway between its two neighbours. -/
inductive Tie
  | even
  | up
  deriving DecidableEq, Repr

/-- The quotient of two natural numbers, rounded to the nearest one. -/
def roundQuotient (tie : Tie) (num den : Nat) : Nat :=
  let q := num / den
  let r := num % den
  if 2 * r < den then q
  else if den < 2 * r then q + 1
  else match tie with
    | .even => if q % 2 = 0 then q else q + 1
    | .up => q + 1

/-- The quotient `num / (den · 2 ^ e)` as a quotient of natural numbers. -/
def scaled (num den : Nat) (e : Int) : Nat × Nat :=
  (num * Nat.pow 2 (-e).toNat, den * Nat.pow 2 e.toNat)

/-- The greatest `e` with `2 ^ e ≤ num / den`. -/
def logQuotient (num den : Nat) : Int :=
  let e : Int := (Nat.log2 num : Int) - Nat.log2 den
  let (n, d) := scaled num den e
  if n < d then e - 1 else e

/-- The least exponent of a double. -/
def leastExponent : Int := -1074

/-- The greatest exponent of a finite double. -/
def greatestExponent : Int := 971

/-- The double nearest to `± num / den`, a tie going to the even mantissa.  A number beyond the
greatest double, by at least half a unit of its last place, becomes infinite. -/
def ofRatio (negative : Bool) (num den : Nat) : Binary64 :=
  if num = 0 then finite negative 0 leastExponent
  else
    let e := max (logQuotient num den - 52) leastExponent
    let (n, d) := scaled num den e
    let m := roundQuotient .even n d
    if m < Nat.pow 2 53 then
      if greatestExponent < e then infinite negative else finite negative m e
    else if greatestExponent < e + 1 then infinite negative
    else finite negative (Nat.pow 2 52) (e + 1)

/-- The double nearest to an integer. -/
def ofInt (i : Int) : Binary64 := ofRatio (i < 0) i.natAbs 1

/-- The double nearest to `10 ^ k`. -/
def powerOfTen (k : Nat) : Binary64 := ofRatio false (Nat.pow 10 k) 1

/-! ## 2. Views -/

/-- The magnitude of `mantissa · 2 ^ exponent` as a quotient of natural numbers. -/
def magnitude (mantissa : Nat) (exponent : Int) : Nat × Nat :=
  (mantissa * Nat.pow 2 exponent.toNat, Nat.pow 2 (-exponent).toNat)

def isFinite : Binary64 → Bool
  | finite .. => true
  | _ => false

/-- The sign of a double is negative; zero has a sign too. -/
def sign : Binary64 → Bool
  | nan => false
  | infinite s => s
  | finite s .. => s

def isZero : Binary64 → Bool
  | finite _ m _ => m == 0
  | _ => false

/-- A finite double without a fractional part. -/
def isWhole : Binary64 → Bool
  | finite _ m e => let (n, d) := magnitude m e; n % d == 0
  | _ => false

/-- The magnitude of a finite double is below a natural number. -/
def magnitudeBelow (bound : Nat) : Binary64 → Bool
  | finite _ m e => let (n, d) := magnitude m e; n < bound * d
  | _ => false

/-- The integer between a double and zero that is nearest to it; `none` if it is not finite. -/
def truncated? : Binary64 → Option Int
  | finite negative m e =>
    let (n, d) := magnitude m e
    let q : Int := (n / d : Nat)
    some (if negative then -q else q)
  | _ => none

/-- The least and the greatest signed integer of 64 bits. -/
def leastInteger : Int := -(Nat.pow 2 63 : Int)
def greatestInteger : Int := (Nat.pow 2 63 : Int) - 1

/-- The signed integer of 64 bits nearest to a double in the direction of zero: what is beyond the
ends of the range becomes the end, and what is not a number becomes zero. -/
def toInteger : Binary64 → Int
  | nan => 0
  | infinite negative => if negative then leastInteger else greatestInteger
  | x@(finite ..) =>
    match x.truncated? with
    | some i => max leastInteger (min greatestInteger i)
    | none => 0

/-! ## 3. Arithmetic -/

def neg : Binary64 → Binary64
  | nan => nan
  | infinite negative => infinite !negative
  | finite negative m e => finite (!negative) m e

def abs : Binary64 → Binary64
  | nan => nan
  | infinite _ => infinite false
  | finite _ m e => finite false m e

def mul : Binary64 → Binary64 → Binary64
  | nan, _ => nan
  | _, nan => nan
  | infinite s, y => if y.isZero then nan else infinite (s != y.sign)
  | x, infinite t => if x.isZero then nan else infinite (x.sign != t)
  | finite s m e, finite t n f =>
    let (num, den) := magnitude (m * n) (e + f)
    ofRatio (s != t) num den

def div : Binary64 → Binary64 → Binary64
  | nan, _ => nan
  | _, nan => nan
  | infinite _, infinite _ => nan
  | infinite s, finite t .. => infinite (s != t)
  | finite s .., infinite t => finite (s != t) 0 leastExponent
  | finite s m e, finite t n f =>
    if n = 0 then if m = 0 then nan else infinite (s != t)
    else
      let (num, den) := magnitude m (e - f)
      ofRatio (s != t) num (den * n)

/-- The sum of two doubles; a sum of zero is positive unless both are negative. -/
def add : Binary64 → Binary64 → Binary64
  | nan, _ => nan
  | _, nan => nan
  | infinite s, infinite t => if s == t then infinite s else nan
  | infinite s, finite .. => infinite s
  | finite .., infinite t => infinite t
  | finite s m e, finite t n f =>
    let least := min e f
    let a : Int := (m * Nat.pow 2 (e - least).toNat : Nat)
    let b : Int := (n * Nat.pow 2 (f - least).toNat : Nat)
    let total := (if s then -a else a) + (if t then -b else b)
    let negative := if total = 0 then s && t else total < 0
    let (num, den) := magnitude total.natAbs least
    ofRatio negative num den

/-! ## 4. Whole neighbours -/

/-- A finite double replaced by a whole number: `whole n d negative` gives the magnitude of the
whole number for the magnitude `n / d`.  The sign stays, also on zero. -/
def wholeBy (whole : Nat → Nat → Bool → Nat) : Binary64 → Binary64
  | finite negative m e => let (n, d) := magnitude m e; ofRatio negative (whole n d negative) 1
  | x => x

/-- The nearest whole double in the direction of zero. -/
def trunc : Binary64 → Binary64 := wholeBy fun n d _ => n / d

/-- The greatest whole double that is not above. -/
def floor : Binary64 → Binary64 :=
  wholeBy fun n d negative => if negative && n % d != 0 then n / d + 1 else n / d

/-- The least whole double that is not below. -/
def ceil : Binary64 → Binary64 :=
  wholeBy fun n d negative => if !negative && n % d != 0 then n / d + 1 else n / d

/-- The nearest whole double, a tie going away from zero. -/
def round : Binary64 → Binary64 :=
  wholeBy fun n d _ => if d ≤ 2 * (n % d) then n / d + 1 else n / d

end Binary64

end Stencil
