/-
# Hexadecimal digits

Bytes and code points in hexadecimal.  Digits are written in lower case and read in either case;
bytes are pairs of digits, and reading what was written gives the bytes back.
-/
import Dissect.Text.Utf8

namespace Dissect.Text

/-! ## 1. Writing -/

/-- The lower-case hexadecimal digit of a value below sixteen. -/
def hexDigit (n : Nat) : Char :=
  if n < 10 then Char.ofNat ('0'.toNat + n) else Char.ofNat ('a'.toNat + (n - 10))

/-- The last `width` hexadecimal digits of a number. -/
def hexDigits : (width : Nat) → Nat → List Char
  | 0, _ => []
  | width + 1, n => hexDigits width (n / 16) ++ [hexDigit (n % 16)]

/-- The bytes as pairs of hexadecimal digits. -/
def hex (bytes : Bytes) : String :=
  String.ofList (bytes.flatMap fun b => hexDigits 2 b.toNat)

/-! ## 2. Reading -/

/-- An ASCII digit. -/
def isDigit (c : Char) : Bool := '0' ≤ c && c ≤ '9'

/-- The value of a hexadecimal digit. -/
def hexValue? (c : Char) : Option Nat :=
  if isDigit c then some (c.toNat - '0'.toNat)
  else if 'a' ≤ c && c ≤ 'f' then some (c.toNat - 'a'.toNat + 10)
  else if 'A' ≤ c && c ≤ 'F' then some (c.toNat - 'A'.toNat + 10)
  else none

/-- The bytes that pairs of digits name. -/
def hexBytes? : List Char → Option Bytes
  | [] => some []
  | [_] => none
  | high :: low :: rest => do
    let high ← hexValue? high
    let low ← hexValue? low
    return UInt8.ofNat (high * 16 + low) :: (← hexBytes? rest)

/-- The bytes that a text of pairs of digits names. -/
def ofHex? (s : String) : Option Bytes := hexBytes? s.toList

/-! ## 3. Laws -/

theorem hexValue?_hexDigit {n : Nat} (h : n < 16) : hexValue? (hexDigit n) = some n := by
  have : ∀ n : Fin 16, hexValue? (hexDigit n) = some n.val := by decide
  exact this ⟨n, h⟩

theorem hexBytes?_hexDigits (b : UInt8) (rest : List Char) :
    hexBytes? (hexDigits 2 b.toNat ++ rest) = (hexBytes? rest).map (b :: ·) := by
  have hb := b.toNat_lt
  have high : hexValue? (hexDigit (b.toNat / 16 % 16)) = some (b.toNat / 16) := by
    rw [hexValue?_hexDigit (by omega)]; congr 1; omega
  have low := hexValue?_hexDigit (show b.toNat % 16 < 16 by omega)
  have sum : UInt8.ofNat (b.toNat / 16 * 16 + b.toNat % 16) = b := by
    rw [show b.toNat / 16 * 16 + b.toNat % 16 = b.toNat by omega]; simp
  show hexBytes? (hexDigit (b.toNat / 16 % 16) :: hexDigit (b.toNat % 16) :: rest) = _
  cases h : hexBytes? rest <;> simp only [hexBytes?, high, low, h] <;> simp only [bind, pure,
    Option.bind_some, Option.bind_none, sum, Option.map_some, Option.map_none]

theorem hexBytes?_flatMap_hexDigits (bytes : Bytes) :
    hexBytes? (bytes.flatMap fun b => hexDigits 2 b.toNat) = some bytes := by
  induction bytes with
  | nil => rfl
  | cons b rest ih => rw [List.flatMap_cons, hexBytes?_hexDigits, ih]; rfl

/-- Reading what was written gives the bytes back. -/
theorem ofHex?_hex (bytes : Bytes) : ofHex? (hex bytes) = some bytes := by
  simp [ofHex?, hex, hexBytes?_flatMap_hexDigits]

end Dissect.Text
