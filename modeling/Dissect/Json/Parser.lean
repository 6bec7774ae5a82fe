/-
# Reading JSON

The reader accepts the JSON grammar with three additions: the numbers `NaN`, `Infinity` and
`-Infinity`, repeated keys, of which the last value counts, and halves of surrogate pairs.  It
refuses a byte order mark, control characters inside strings, and integers of more than 4300
digits; arrays and objects in each other beyond a depth are a refusal of their own.
-/
import Dissect.Json.Basic
import Dissect.Text.Hex
import Dissect.Text.Units

namespace Dissect.Json

open Text (hexValue? isDigit isHighUnit isLowUnit loneUnit charOf)

/-- Why a text holds no document. -/
inductive Refusal where
  /-- It is not in the grammar. -/
  | malformed
  /-- An array is nested too deeply. -/
  | deepArray
  /-- An object is nested too deeply. -/
  | deepObject
deriving DecidableEq, Repr

/-- A reader of a token takes it from the front of the characters and leaves the rest. -/
abbrev TokenReader (α : Type) := List Char → Option (α × List Char)

/-- A reader takes a value from the front of the characters and leaves the rest. -/
abbrev Reader (α : Type) := List Char → Except Refusal (α × List Char)

/-- The reader of a token as a reader. -/
def token {α : Type} (read : TokenReader α) : Reader α := fun cs =>
  match read cs with
  | some result => .ok result
  | none => .error .malformed

/-! ## 1. Tokens -/

/-- The characters that may stand between tokens. -/
def isSpace (c : Char) : Bool := c = ' ' || c = '\t' || c = '\n' || c = '\r'

/-- The characters without leading spaces. -/
def skipSpace (cs : List Char) : List Char := cs.dropWhile isSpace

/-- The code unit that four hexadecimal digits name. -/
def readUnit : TokenReader Nat
  | a :: b :: c :: d :: rest => do
    let a ← hexValue? a
    let b ← hexValue? b
    let c ← hexValue? c
    let d ← hexValue? d
    some (((a * 16 + b) * 16 + c) * 16 + d, rest)
  | _ => none

/-- The character after the escape `\u`: a pair of units makes one, and a unit alone stays. -/
def readUnicodeEscape : TokenReader Char := fun cs => do
  let (high, rest) ← readUnit cs
  if isHighUnit high then
    match rest with
    | '\\' :: 'u' :: tail =>
      match readUnit tail with
      | some (low, rest') =>
        if isLowUnit low then
          some (Char.ofNat (0x10000 + (high - 0xd800) * 0x400 + (low - 0xdc00)), rest')
        else some (loneUnit high, rest)
      | none => some (loneUnit high, rest)
    | _ => some (loneUnit high, rest)
  else some (charOf high, rest)

/-- The character after a backslash. -/
def readEscape : TokenReader Char
  | '"' :: rest => some ('"', rest)
  | '\\' :: rest => some ('\\', rest)
  | '/' :: rest => some ('/', rest)
  | 'b' :: rest => some (Char.ofNat 8, rest)
  | 'f' :: rest => some (Char.ofNat 12, rest)
  | 'n' :: rest => some ('\n', rest)
  | 'r' :: rest => some ('\r', rest)
  | 't' :: rest => some ('\t', rest)
  | 'u' :: rest => readUnicodeEscape rest
  | _ => none

/-- The characters up to the closing quote. -/
def readStringTail : Nat → TokenReader (List Char)
  | 0, _ => none
  | _ + 1, [] => none
  | fuel + 1, c :: rest =>
    if c = '"' then some ([], rest)
    else if c = '\\' then do
      let (c', rest') ← readEscape rest
      let (cs, rest'') ← readStringTail fuel rest'
      some (c' :: cs, rest'')
    else if c.toNat < 0x20 then none
    else do
      let (cs, rest') ← readStringTail fuel rest
      some (c :: cs, rest')

/-- A string after its opening quote. -/
def readString : TokenReader String := fun cs => do
  let (s, rest) ← readStringTail (cs.length + 1) cs
  some (String.ofList s, rest)

/-- The fraction of a number: a dot and at least one digit. -/
def readFraction : List Char → Option (List Char × List Char)
  | '.' :: rest =>
    match rest.takeWhile isDigit with
    | [] => none
    | digits => some (digits, rest.dropWhile isDigit)
  | _ => none

/-- The digits of an exponent after its sign. -/
def readExponentDigits (negative : Bool) (cs : List Char) : Option (Int × List Char) :=
  match cs.takeWhile isDigit with
  | [] => none
  | digits =>
    let n : Int := Double.digitsValue digits
    some (if negative then -n else n, cs.dropWhile isDigit)

/-- The exponent of a number. -/
def readExponent : List Char → Option (Int × List Char)
  | c :: rest =>
    if c = 'e' || c = 'E' then
      match rest with
      | '+' :: tail => readExponentDigits false tail
      | '-' :: tail => readExponentDigits true tail
      | tail => readExponentDigits false tail
    else none
  | [] => none

/-- The whole digits of a number: a zero alone, or digits that do not start with one. -/
def readWhole : List Char → Option (List Char × List Char)
  | '0' :: rest => some (['0'], rest)
  | cs =>
    match cs.takeWhile isDigit with
    | [] => none
    | digits => some (digits, cs.dropWhile isDigit)

/-- The greatest number of digits of an integer. -/
def maxDigits : Nat := 4300

/-- A number after its sign.  A fraction or an exponent makes it a floating-point number. -/
def readNumber (negative : Bool) : TokenReader Json := fun cs => do
  let (whole, rest) ← readWhole cs
  let (fraction, rest) := (readFraction rest).getD ([], rest)
  match readExponent rest with
  | some (exponent, rest) => some (.real (Double.ofDigits negative whole fraction exponent), rest)
  | none =>
    if fraction.isEmpty then
      if maxDigits < whole.length then none
      else
        let n : Int := Double.digitsValue whole
        some (.int (if negative then -n else n), rest)
    else some (.real (Double.ofDigits negative whole fraction 0), rest)

/-- The words that stand for values. -/
def words : List (String × Json) :=
  [("null", .null), ("true", .bool true), ("false", .bool false), ("NaN", .real .nan),
   ("Infinity", .real (.infinite false)), ("-Infinity", .real (.infinite true))]

/-- One of the words. -/
def readWord : TokenReader Json := fun cs =>
  words.findSome? fun (word, value) =>
    if word.toList.isPrefixOf cs then some (value, cs.drop word.length) else none

/-! ## 2. Documents -/

/-- How deep arrays and objects may be nested in each other. -/
def maxNesting : Nat := 986

mutual

/-- A document at the front of the characters, which may be nested to a depth. -/
def readValue (depth : Nat) : Nat → Reader Json
  | 0, _ => .error .malformed
  | fuel + 1, cs =>
    match cs, depth with
    | '"' :: rest, _ => do
      let (s, rest) ← token readString rest
      .ok (.str s, rest)
    | '[' :: _, 0 => .error .deepArray
    | '[' :: rest, depth + 1 =>
      match skipSpace rest with
      | ']' :: rest => .ok (.arr [], rest)
      | rest => do
        let (items, rest) ← readItems depth fuel rest
        .ok (.arr items, rest)
    | '\x7b' :: _, 0 => .error .deepObject
    | '\x7b' :: rest, depth + 1 =>
      match skipSpace rest with
      | '\x7d' :: rest => .ok (.obj [], rest)
      | rest => do
        let (members, rest) ← readMembers depth fuel [] rest
        .ok (.obj members, rest)
    | cs, _ =>
      match readWord cs with
      | some result => .ok result
      | none =>
        match cs with
        | '-' :: rest => token (readNumber true) rest
        | cs => token (readNumber false) cs

/-- The items of an array up to its closing bracket. -/
def readItems (depth : Nat) : Nat → Reader (List Json)
  | 0, _ => .error .malformed
  | fuel + 1, cs => do
    let (item, rest) ← readValue depth fuel cs
    match skipSpace rest with
    | ']' :: rest => .ok ([item], rest)
    | ',' :: rest =>
      let (items, rest) ← readItems depth fuel (skipSpace rest)
      .ok (item :: items, rest)
    | _ => .error .malformed

/-- The members of an object up to its closing brace, after those already read. -/
def readMembers (depth : Nat) : Nat → List (String × Json) → Reader (List (String × Json))
  | 0, _, _ => .error .malformed
  | fuel + 1, done, cs =>
    match cs with
    | '"' :: rest => do
      let (key, rest) ← token readString rest
      match skipSpace rest with
      | ':' :: rest =>
        let (value, rest) ← readValue depth fuel (skipSpace rest)
        let done := setMember key value done
        match skipSpace rest with
        | '\x7d' :: rest => .ok (done, rest)
        | ',' :: rest => readMembers depth fuel done (skipSpace rest)
        | _ => .error .malformed
      | _ => .error .malformed
    | _ => .error .malformed

end

/-- The document that a text holds, with nothing but spaces around it. -/
def parse (s : String) : Except Refusal Json := do
  let cs := s.toList
  let (document, rest) ← readValue maxNesting (2 * cs.length + 2) (skipSpace cs)
  if (skipSpace rest).isEmpty then .ok document else .error .malformed

/-- The document that a text holds, if it holds one. -/
def parse? (s : String) : Option Json := (parse s).toOption

end Dissect.Json
