/-
# Decimal texts of floating-point numbers

A finite number is written with the fewest digits that read back as the same number, and of those
candidates with the nearest one.  Numbers from 1e-4 up to 1e16 are written positionally and keep at
least one decimal; all others have an exponent of at least two digits.
-/
import Dissect.Double.Basic

namespace Dissect.Double

/-! ## 1. Shortest digits -/

/-- A decimal `digits · 10 ^ exponent`. -/
structure Decimal where
  digits : Nat
  exponent : Int
deriving DecidableEq, Repr

/-- The number nearest to a decimal. -/
def ofParts (negative : Bool) (d : Decimal) : Double := ofDecimal negative d.digits d.exponent

/-- The decimals on the grid `10 ^ e` on both sides of `num / den`, the nearer one first; of two
equally near ones the even one. -/
def neighbours (num den : Nat) (e : Int) : List Decimal :=
  let (n, d) := if 0 ≤ e then (num, den * Nat.pow 10 e.toNat) else (num * Nat.pow 10 (-e).toNat, den)
  let low := n / d
  if roundQuotient n d = low then [⟨low, e⟩, ⟨low + 1, e⟩] else [⟨low + 1, e⟩, ⟨low, e⟩]

/-- The first decimal, from coarse grids to fine ones, that reads back as the number. -/
def shortestFrom (target : Double) (num den : Nat) : Nat → Int → Decimal
  | 0, e => ⟨num, e⟩
  | fuel + 1, e =>
    match (neighbours num den e).find? (fun d => ofParts false d == target) with
    | some d => d
    | none => shortestFrom target num den fuel (e - 1)

/-- A power of ten above `num / den`, as an exponent. -/
def magnitude (num den : Nat) : Int :=
  ((Nat.log2 num : Int) - Nat.log2 den) * 3 / 10 + 3

/-- A decimal of the fewest digits that reads back as the positive number
`coefficient · 2 ^ exponent`. -/
def shortest (coefficient : Nat) (exponent : Int) : Decimal :=
  let (num, den) := fraction false coefficient exponent
  shortestFrom (.finite false coefficient exponent) num.toNat den 40 (magnitude num.toNat den)

/-! ## 2. Layout -/

/-- The decimal without the zeros at the end of its digits. -/
def Decimal.trim : Nat → Decimal → Decimal
  | 0, d => d
  | fuel + 1, d =>
    if d.digits % 10 = 0 && d.digits != 0 then Decimal.trim fuel ⟨d.digits / 10, d.exponent + 1⟩
    else d

/-- A positive exponent gets a plus sign, and every exponent two digits. -/
def exponentText (e : Int) : String :=
  let digits := toString e.natAbs
  (if e < 0 then "e-" else "e+") ++ (if e.natAbs < 10 then "0" ++ digits else digits)

/-- The text of a positive decimal. -/
def Decimal.text (d : Decimal) : String :=
  let digits := (toString d.digits).toList
  let point : Int := d.exponent + digits.length
  let zeros (n : Nat) : List Char := List.replicate n '0'
  if -4 < point && point ≤ 16 then
    if point ≤ 0 then String.ofList ('0' :: '.' :: zeros (-point).toNat ++ digits)
    else if digits.length ≤ point.toNat then
      String.ofList (digits ++ zeros (point.toNat - digits.length) ++ ['.', '0'])
    else
      String.ofList (digits.take point.toNat ++ '.' :: digits.drop point.toNat)
  else
    match digits with
    | [] => ""
    | [c] => String.singleton c ++ exponentText (point - 1)
    | c :: rest => String.ofList (c :: '.' :: rest) ++ exponentText (point - 1)

/-- The text of a number. -/
def text : Double → String
  | .nan => "nan"
  | .infinite negative => if negative then "-inf" else "inf"
  | .finite negative c e =>
    let sign := if negative then "-" else ""
    if c = 0 then sign ++ "0.0" else sign ++ ((shortest c e).trim 20).text

/-! ## 3. Reading -/

/-- The value of a row of decimal digits. -/
def digitsValue (cs : List Char) : Nat :=
  cs.foldl (fun n c => n * 10 + (c.toNat - '0'.toNat)) 0

/-- The number written as whole digits, fraction digits and an exponent. -/
def ofDigits (negative : Bool) (whole fraction : List Char) (exponent : Int) : Double :=
  ofDecimal negative (digitsValue (whole ++ fraction)) (exponent - fraction.length)

end Dissect.Double
