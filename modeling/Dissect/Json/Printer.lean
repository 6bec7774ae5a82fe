/-
# Printing JSON

The text of a document is pure ASCII.  With an indent every item stands on a line of its own,
indented by its depth, and without one the whole document is a single line; empty arrays and
objects are never broken.
-/
import Dissect.Json.Basic
import Dissect.Text.Quoted
import Dissect.Text.Scan

namespace Dissect.Json

/-! ## 1. Strings -/

/-- A code unit of sixteen bits as an escape. -/
def escapeUnit (n : Nat) : List Char := '\\' :: 'u' :: Text.hexDigits 4 n

/-- A character inside a JSON string.  Beyond the basic plane a character takes two units. -/
def escapeChar (c : Char) : List Char :=
  if c = '"' then ['\\', '"']
  else if c = '\\' then ['\\', '\\']
  else if c = '\n' then ['\\', 'n']
  else if c = '\r' then ['\\', 'r']
  else if c = '\t' then ['\\', 't']
  else if c = Char.ofNat 8 then ['\\', 'b']
  else if c = Char.ofNat 12 then ['\\', 'f']
  else if 0x20 ≤ c.toNat && c.toNat ≤ 0x7e then [c]
  else if Text.codeOf c < 0x10000 then escapeUnit (Text.codeOf c)
  else
    let n := c.toNat - 0x10000
    escapeUnit (0xd800 + n / 0x400) ++ escapeUnit (0xdc00 + n % 0x400)

/-- A text as a JSON string. -/
def stringText (s : String) : String :=
  String.ofList ('"' :: s.toList.flatMap escapeChar ++ ['"'])

/-- A number as JSON writes it; numbers that are not finite have names. -/
def realText : Double → String
  | .nan => "NaN"
  | .infinite negative => if negative then "-Infinity" else "Infinity"
  | x => x.text

/-! ## 2. Layout -/

/-- The break before an item at a depth: nothing on a single line, else a new line with the
indent.  An indent below zero counts as zero. -/
def lineBreak (indent : Option Int) (depth : Nat) : String :=
  match indent with
  | none => ""
  | some width => String.ofList ('\n' :: List.replicate (width.toNat * depth) ' ')

/-- What separates two items. -/
def separator (indent : Option Int) (depth : Nat) : String :=
  match indent with
  | none => ", "
  | some _ => "," ++ lineBreak indent depth

/-- A piece of a document's text: text as it is, or a whole number. -/
inductive Piece where
  | text (s : String)
  | whole (n : Int)
deriving DecidableEq, Repr

/-- The text of a piece. -/
def Piece.written : Piece → String
  | .text s => s
  | .whole n => toString n

/-- Items between brackets, each at the given depth. -/
def enclose (opening closing : String) (indent : Option Int) (depth : Nat)
    (items : List (List Piece)) : List Piece :=
  match items with
  | [] => [.text (opening ++ closing)]
  | items =>
    .text (opening ++ lineBreak indent (depth + 1)) ::
      (items.intersperse [.text (separator indent (depth + 1))]).flatten ++
        [.text (lineBreak indent depth ++ closing)]

mutual

/-- The pieces of a document that stands at a depth. -/
def piecesAt (indent : Option Int) (depth : Nat) : Json → List Piece
  | .null => [.text "null"]
  | .bool b => [.text (if b then "true" else "false")]
  | .int n => [.whole n]
  | .real x => [.text (realText x)]
  | .str s => [.text (stringText s)]
  | .arr items => enclose "[" "]" indent depth (itemPieces indent (depth + 1) items)
  | .obj members => enclose "\x7b" "\x7d" indent depth (memberPieces indent (depth + 1) members)

/-- The pieces of the items of an array. -/
def itemPieces (indent : Option Int) (depth : Nat) : List Json → List (List Piece)
  | [] => []
  | item :: rest => piecesAt indent depth item :: itemPieces indent depth rest

/-- The pieces of the members of an object. -/
def memberPieces (indent : Option Int) (depth : Nat) : List (String × Json) → List (List Piece)
  | [] => []
  | (key, value) :: rest =>
    (.text (stringText key ++ ": ") :: piecesAt indent depth value) ::
      memberPieces indent depth rest

end

/-- The text that pieces make up. -/
def joined (pieces : List Piece) : String := String.join (pieces.map Piece.written)

/-- The text of a document with an indent, or on one line. -/
def text (indent : Option Int) (document : Json) : String := joined (piecesAt indent 0 document)

/-! ## 3. Long numbers -/

/-- The least number of too many digits. -/
def tooLong : Nat := Nat.pow 10 4300

/-- A piece that is written without ado: anything but a whole number of too many digits. -/
def Piece.isShort : Piece → Bool
  | .text _ => true
  | .whole n => n.natAbs < tooLong

/-- The text of a document as far as it can be written: up to the first number of more than 4300
digits. -/
def writableText (indent : Option Int) (document : Json) : String :=
  joined ((piecesAt indent 0 document).takeWhile Piece.isShort)

/-- All of a document can be written. -/
def isWritable (document : Json) : Bool := (piecesAt none 0 document).all Piece.isShort

end Dissect.Json
