/-
# Lone code units

A document may name the halves of a pair of code units one by one, and a half may stand alone.  It
is then no character, but texts keep it: the unit `u` is held as the private character
`0x100000 + u`, and whatever shows a code point shows the unit again.

The characters from U+10D800 to U+10DFFF, which are private, therefore stand for the halves here and
never for themselves.  A text that has them as characters of its own cannot be told apart from one with
single halves, and what is said of texts is not said of it.
-/

namespace Dissect.Text

/-- The unit is the first of a pair. -/
def isHighUnit (n : Nat) : Bool := 0xd800 ≤ n && n ≤ 0xdbff

/-- The unit is the second of a pair. -/
def isLowUnit (n : Nat) : Bool := 0xdc00 ≤ n && n ≤ 0xdfff

/-- What is added to a lone unit to make a character of it. -/
def loneOffset : Nat := 0x100000

/-- The character that holds a lone unit, one of U+10D800 to U+10DFFF. -/
def loneUnit (n : Nat) : Char := Char.ofNat (loneOffset + n)

/-- The lone unit that a character holds. -/
def loneUnit? (c : Char) : Option Nat :=
  let n := c.toNat - loneOffset
  if isHighUnit n || isLowUnit n then some n else none

/-- The code point that a character stands for: the unit, for one that holds a lone unit. -/
def codeOf (c : Char) : Nat := (loneUnit? c).getD c.toNat

/-- The character for a code point of any kind. -/
def charOf (n : Nat) : Char := if isHighUnit n || isLowUnit n then loneUnit n else Char.ofNat n

/-- The byte that a unit stands for in a text made of bytes that are no text: the units from 0xdc80 to
0xdcff stand for the upper half of the bytes. -/
def strayByteOf? (unit : Nat) : Option UInt8 :=
  if 0xdc80 ≤ unit && unit ≤ 0xdcff then some (UInt8.ofNat unit) else none

/-- The byte that a character stands for if it holds a unit that stands for one. -/
def strayByte? (c : Char) : Option UInt8 := (loneUnit? c).bind strayByteOf?

/-- A lone unit stays what it is. -/
theorem codeOf_charOf_lone {n : Nat} (low : 0xd800 ≤ n) (high : n ≤ 0xdfff) :
    codeOf (charOf n) = n := by
  have unit : (isHighUnit n || isLowUnit n) = true := by
    simp [isHighUnit, isLowUnit]; omega
  have valid : (loneOffset + n).isValidChar := Or.inr ⟨by simp [loneOffset]; omega, by
    simp [loneOffset]; omega⟩
  have value : (Char.ofNat (loneOffset + n)).toNat = loneOffset + n := by
    unfold Char.ofNat
    rw [dif_pos valid]
    rfl
  simp [charOf, unit, codeOf, loneUnit?, loneUnit, value]

end Dissect.Text
