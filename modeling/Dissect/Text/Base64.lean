/-
# Base64

The strict reading of base64: digits of the standard alphabet, then padding and nothing else.  Two
digits in the last group of four ask for two padding signs and three for one; after a full group
any number of signs is tolerated, but padding alone is not a text.
-/
import Dissect.Text.Utf8

namespace Dissect.Text

/-- The value of a base64 digit. -/
def base64Digit? (c : Char) : Option Nat :=
  if 'A' ≤ c && c ≤ 'Z' then some (c.toNat - 'A'.toNat)
  else if 'a' ≤ c && c ≤ 'z' then some (c.toNat - 'a'.toNat + 26)
  else if '0' ≤ c && c ≤ '9' then some (c.toNat - '0'.toNat + 52)
  else if c = '+' then some 62
  else if c = '/' then some 63
  else none

/-- The bytes of a row of digits; one digit beyond a full group carries no byte. -/
def base64Bytes : List Nat → Bytes
  | a :: b :: c :: d :: rest =>
    UInt8.ofNat (a * 4 + b / 16) :: UInt8.ofNat (b % 16 * 16 + c / 4) ::
      UInt8.ofNat (c % 4 * 64 + d) :: base64Bytes rest
  | [a, b, c] => [UInt8.ofNat (a * 4 + b / 16), UInt8.ofNat (b % 16 * 16 + c / 4)]
  | [a, b] => [UInt8.ofNat (a * 4 + b / 16)]
  | _ => []

/-- The number of padding signs suits the number of digits. -/
def paddingSuits (digits padding : Nat) : Bool :=
  match digits % 4 with
  | 0 => digits != 0 || padding == 0
  | 2 => padding == 2
  | 3 => padding == 1
  | _ => false

/-- The bytes that a base64 text stands for. -/
def base64Decode? (s : String) : Option Bytes :=
  let isDigit (c : Char) : Bool := (base64Digit? c).isSome
  let digits := s.toList.takeWhile isDigit
  let padding := s.toList.dropWhile isDigit
  if padding.all (· = '=') && paddingSuits digits.length padding.length then
    some (base64Bytes (digits.filterMap base64Digit?))
  else none

/-- The digit of a value below sixty-four. -/
def base64Char (n : Nat) : Char :=
  if n < 26 then Char.ofNat ('A'.toNat + n)
  else if n < 52 then Char.ofNat ('a'.toNat + (n - 26))
  else if n < 62 then Char.ofNat ('0'.toNat + (n - 52))
  else if n = 62 then '+' else '/'

/-- The padded base64 digits of bytes. -/
def base64Chars : Bytes → List Char
  | a :: b :: c :: rest =>
    base64Char (a.toNat / 4) :: base64Char (a.toNat % 4 * 16 + b.toNat / 16) ::
      base64Char (b.toNat % 16 * 4 + c.toNat / 64) :: base64Char (c.toNat % 64) ::
      base64Chars rest
  | [a, b] =>
    [base64Char (a.toNat / 4), base64Char (a.toNat % 4 * 16 + b.toNat / 16),
      base64Char (b.toNat % 16 * 4), '=']
  | [a] => [base64Char (a.toNat / 4), base64Char (a.toNat % 4 * 16), '=', '=']
  | [] => []

/-- The padded base64 text of bytes. -/
def base64Encode (bytes : Bytes) : String := String.ofList (base64Chars bytes)

end Dissect.Text
