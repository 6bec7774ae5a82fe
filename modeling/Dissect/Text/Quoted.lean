/-
# Quoted texts and bytes

The unambiguous one-line form of a text: in single quotes, or in double quotes when the text holds
a single quote and no double one.  Characters that are not printable are escaped by number, with
short forms for tab, line feed and carriage return.  Bytes are written the same way after a `b`,
with every byte outside printable ASCII escaped.
-/
import Dissect.Text.Hex
import Dissect.Text.Printable
import Dissect.Text.Units

namespace Dissect.Text

/-- The quote that encloses the characters. -/
def quoteFor (cs : List Char) : Char :=
  if cs.contains '\'' && !cs.contains '"' then '"' else '\''

/-- The escape of a code point by number. -/
def escapeCode (n : Nat) : List Char :=
  if n < 0x100 then '\\' :: 'x' :: hexDigits 2 n
  else if n < 0x10000 then '\\' :: 'u' :: hexDigits 4 n
  else '\\' :: 'U' :: hexDigits 8 n

/-- A character inside the given quotes. -/
def escapeChar (quote : Char) (c : Char) : List Char :=
  if c = quote || c = '\\' then ['\\', c]
  else if c = '\n' then ['\\', 'n']
  else if c = '\r' then ['\\', 'r']
  else if c = '\t' then ['\\', 't']
  else if isPrintable c then [c]
  else escapeCode (codeOf c)

/-- The characters of a quoted text. -/
def quoteChars (cs : List Char) : List Char :=
  let quote := quoteFor cs
  quote :: cs.flatMap (escapeChar quote) ++ [quote]

/-- A text in quotes. -/
def quote (s : String) : String := String.ofList (quoteChars s.toList)

/-- A byte inside the given quotes. -/
def escapeByte (quote : Char) (b : UInt8) : List Char :=
  if 0x7f ≤ b.toNat then escapeCode b.toNat else escapeChar quote (Char.ofNat b.toNat)

/-- Bytes after a `b`, in the quotes that suit them, escaped as if in the given quotes. -/
def quoteBytesAs (escaped : Char → Char) (bytes : Bytes) : String :=
  let quote := quoteFor (bytes.map fun b => Char.ofNat b.toNat)
  String.ofList ('b' :: quote :: bytes.flatMap (escapeByte (escaped quote)) ++ [quote])

/-- Bytes in quotes, after a `b`. -/
def quoteBytes (bytes : Bytes) : String := quoteBytesAs id bytes

/-- The bytes of a buffer in quotes: its single quotes are escaped whatever encloses them. -/
def quoteBuffer (bytes : Bytes) : String := quoteBytesAs (fun _ => '\'') bytes

end Dissect.Text
