/-
# Binary floating-point numbers

The numbers of the 64-bit binary format, held exactly: a sign, a coefficient of at most 53 bits and
a power of two.  Arithmetic is exact arithmetic on fractions followed by one rounding to the
nearest number, ties to the even coefficient.
-/

namespace Dissect

/-- A number of the 64-bit binary format.  A finite number is `± coefficient · 2 ^ exponent`. -/
inductive Double where
  | nan
  | infinite (negative : Bool)
  | finite (negative : Bool) (coefficient : Nat) (exponent : Int)
deriving DecidableEq, Repr

namespace Double

/-! ## 1. Rounding -/

/-- The least exponent of a finite number. -/
def minExponent : Int := -1074

/-- The greatest exponent of a finite number. -/
def maxExponent : Int := 971

/-- The quotient rounded to the nearest integer, ties to even. -/
def roundQuotient (num den : Nat) : Nat :=
  let q := num / den
  let r := num % den
  if 2 * r > den || (2 * r == den && q % 2 == 1) then q + 1 else q

/-- `num / den / 2 ^ e` as a fraction. -/
def scaleDown (num den : Nat) (e : Int) : Nat × Nat :=
  if 0 ≤ e then (num, den * Nat.pow 2 e.toNat) else (num * Nat.pow 2 (-e).toNat, den)

/-- Puts a coefficient of at most `2 ^ 53` into the format, or overflows. -/
def pack (negative : Bool) (coefficient : Nat) (exponent : Int) : Double :=
  if coefficient = 0 then .finite negative 0 0
  else
    let (c, e) :=
      if coefficient = Nat.pow 2 53 then (Nat.pow 2 52, exponent + 1) else (coefficient, exponent)
    if maxExponent < e then .infinite negative else .finite negative c e

/-- The number nearest to `± num / den`. -/
def ofFraction (negative : Bool) (num den : Nat) : Double :=
  if num = 0 then .finite negative 0 0
  else
    let guess : Int := (Nat.log2 num : Int) - Nat.log2 den - 53
    let (n, d) := scaleDown num den guess
    let e := max minExponent (if n / d < Nat.pow 2 53 then guess else guess + 1)
    let (n, d) := scaleDown num den e
    pack negative (roundQuotient n d) e

/-- The number nearest to `± digits · 10 ^ e`.  Far outside the range the answer is known without
the power. -/
def ofDecimal (negative : Bool) (digits : Nat) (e : Int) : Double :=
  let size : Int := Nat.log2 digits
  if digits = 0 then .finite negative 0 0
  else if 400 < e + size / 4 then .infinite negative
  else if e + size / 3 < -400 then .finite negative 0 0
  else if 0 ≤ e then ofFraction negative (digits * Nat.pow 10 e.toNat) 1
  else ofFraction negative digits (Nat.pow 10 (-e).toNat)

/-- The number nearest to an integer. -/
def ofInt (n : Int) : Double := ofFraction (n < 0) n.natAbs 1

/-! ## 2. Values -/

/-- The value of a finite number as a fraction with positive denominator. -/
def fraction (negative : Bool) (coefficient : Nat) (exponent : Int) : Int × Nat :=
  let c : Int := if negative then -(coefficient : Int) else coefficient
  if 0 ≤ exponent then (c * Nat.pow 2 exponent.toNat, 1) else (c, Nat.pow 2 (-exponent).toNat)

/-- The sign of the number is minus. -/
def isNegative : Double → Bool
  | .nan => false
  | .infinite negative => negative
  | .finite negative .. => negative

/-- The number is zero, of either sign. -/
def isZero : Double → Bool
  | .finite _ c _ => c == 0
  | _ => false

/-- The first number is less than the second; never so for a NaN. -/
def lt : Double → Double → Bool
  | .nan, _ => false
  | _, .nan => false
  | .infinite a, .infinite b => a && !b
  | .infinite a, .finite .. => a
  | .finite .., .infinite b => !b
  | .finite s c e, .finite s' c' e' =>
    let (n, d) := fraction s c e
    let (n', d') := fraction s' c' e'
    n * d' < n' * d

/-- The integer is less than the number. -/
def intLt (i : Int) : Double → Bool
  | .nan => false
  | .infinite negative => !negative
  | .finite s c e => let (n, d) := fraction s c e; i * d < n

/-- The number is less than the integer. -/
def ltInt (i : Int) : Double → Bool
  | .nan => false
  | .infinite negative => negative
  | .finite s c e => let (n, d) := fraction s c e; n < i * d

/-- The number is equal to the integer. -/
def eqInt (i : Int) : Double → Bool
  | .finite s c e => let (n, d) := fraction s c e; n == i * d
  | _ => false

/-- The greatest integer that is at most the number; none for a number that is not finite. -/
def floor? : Double → Option Int
  | .finite s c e => let (n, d) := fraction s c e; some (n.fdiv d)
  | _ => none

/-- The number plus an integer that the format holds exactly. -/
def addInt (x : Double) (i : Int) : Double :=
  match x with
  | .finite s c e =>
    let (n, d) := fraction s c e
    let total := n + i * d
    ofFraction (total < 0) total.natAbs d
  | other => other

end Double

end Dissect
