/-
# UTF-8

Texts are written as UTF-8 and read back in two ways.  The strict reading stops at the first byte
that no text explains and says where and why; the lenient one replaces every maximal malformed
part by one U+FFFD.  Both are folds over the same list of pieces, so they agree on well-formed
bytes.
-/
import Dissect.Text.Units

namespace Dissect.Text

/-- A sequence of bytes. -/
abbrev Bytes := List UInt8

/-! ## 1. Writing -/

/-- The bytes of one character. -/
def encodeChar (c : Char) : Bytes :=
  let n := c.toNat
  let tail (shift : Nat) : UInt8 := UInt8.ofNat (0x80 + n / Nat.pow 2 shift % 0x40)
  if n < 0x80 then [UInt8.ofNat n]
  else if n < 0x800 then [UInt8.ofNat (0xc0 + n / 0x40), tail 0]
  else if n < 0x10000 then [UInt8.ofNat (0xe0 + n / 0x1000), tail 6, tail 0]
  else [UInt8.ofNat (0xf0 + n / 0x40000), tail 12, tail 6, tail 0]

/-- The bytes of a text. -/
def encode (s : String) : Bytes := s.toList.flatMap encodeChar

/-- The bytes of a text that may hold stray bytes. -/
def encodeArgument (s : String) : Bytes :=
  s.toList.flatMap fun c => (strayByte? c).elim (encodeChar c) ([·])

/-! ## 2. Reading -/

/-- Why bytes are not part of a text. -/
inductive Malformation where
  | start
  | continuation
  | truncated
deriving DecidableEq, Repr

/-- The wording of each reason. -/
def Malformation.reason : Malformation → String
  | .start => "invalid start byte"
  | .continuation => "invalid continuation byte"
  | .truncated => "unexpected end of data"

/-- A stretch of bytes: one character of `width` bytes, or a malformed part of `width` bytes that
begins with `first`. -/
inductive Piece where
  | char (c : Char) (width : Nat)
  | malformed (why : Malformation) (first : UInt8) (width : Nat)
deriving DecidableEq, Repr

/-- The number of bytes of the piece. -/
def Piece.width : Piece → Nat
  | .char _ width => width
  | .malformed _ _ width => width

/-- A character of which some bytes have been read: its first byte, how many bytes were seen, how
many are owed, the range of the next one, and the code point so far. -/
structure Partial where
  first : UInt8
  seen : Nat
  owed : Nat
  low : Nat
  high : Nat
  code : Nat
deriving DecidableEq, Repr

/-- The character that a lead byte begins, if it begins one of several bytes. -/
def Partial.ofLead? (b : UInt8) : Option Partial :=
  let n := b.toNat
  if 0xc2 ≤ n && n ≤ 0xdf then some ⟨b, 1, 1, 0x80, 0xbf, n - 0xc0⟩
  else if n = 0xe0 then some ⟨b, 1, 2, 0xa0, 0xbf, 0⟩
  else if n = 0xed then some ⟨b, 1, 2, 0x80, 0x9f, 0xd⟩
  else if 0xe1 ≤ n && n ≤ 0xef then some ⟨b, 1, 2, 0x80, 0xbf, n - 0xe0⟩
  else if n = 0xf0 then some ⟨b, 1, 3, 0x90, 0xbf, 0⟩
  else if n = 0xf4 then some ⟨b, 1, 3, 0x80, 0x8f, 4⟩
  else if 0xf1 ≤ n && n ≤ 0xf3 then some ⟨b, 1, 3, 0x80, 0xbf, n - 0xf0⟩
  else none

/-- Takes a byte as the first of a piece. -/
def beginPiece (b : UInt8) : List Piece × Option Partial :=
  if b.toNat < 0x80 then ([.char (Char.ofNat b.toNat) 1], none)
  else
    match Partial.ofLead? b with
    | some part => ([], some part)
    | none => ([.malformed .start b 1], none)

/-- Takes one more byte: the pieces that it completes and the unfinished character after it. -/
def stepPiece (pending : Option Partial) (b : UInt8) : List Piece × Option Partial :=
  match pending with
  | none => beginPiece b
  | some part =>
    if part.low ≤ b.toNat && b.toNat ≤ part.high then
      let code := part.code * 0x40 + b.toNat % 0x40
      if part.owed ≤ 1 then ([.char (Char.ofNat code) (part.seen + 1)], none)
      else ([], some ⟨part.first, part.seen + 1, part.owed - 1, 0x80, 0xbf, code⟩)
    else
      let (pieces, next) := beginPiece b
      (.malformed .continuation part.first part.seen :: pieces, next)

/-- The pieces of a byte sequence after an unfinished character, and the character left unfinished
at its end. -/
def piecesFrom (pending : Option Partial) : Bytes → List Piece × Option Partial
  | [] => ([], pending)
  | b :: rest =>
    let (now, next) := stepPiece pending b
    let (later, last) := piecesFrom next rest
    (now ++ later, last)

/-- The pieces of a whole byte sequence. -/
def pieces (bytes : Bytes) : List Piece :=
  let (done, last) := piecesFrom none bytes
  match last with
  | none => done
  | some part => done ++ [.malformed .truncated part.first part.seen]

/-- The first malformed part of a byte sequence. -/
structure DecodeError where
  why : Malformation
  first : UInt8
  position : Nat
  width : Nat
deriving DecidableEq, Repr

/-- The characters of the pieces, which begin at a position, unless one of them is malformed. -/
def charsOf (position : Nat) : List Piece → Except DecodeError (List Char)
  | [] => .ok []
  | .char c width :: rest => (charsOf (position + width) rest).map (c :: ·)
  | .malformed why first width :: _ => .error ⟨why, first, position, width⟩

/-- The strict reading. -/
def decode? (bytes : Bytes) : Except DecodeError String :=
  (charsOf 0 (pieces bytes)).map String.ofList

/-- The lenient reading: one U+FFFD for each malformed part. -/
def decodeLossy (bytes : Bytes) : String :=
  String.ofList <| (pieces bytes).map fun
    | .char c _ => c
    | .malformed .. => Char.ofNat 0xfffd

/-! ## 3. Reading in blocks

A text file that is read line by line is decoded block by block.  The bytes of a character that a
block boundary cuts are carried over, and positions count from the carried bytes on. -/

/-- The characters decoded before the first malformed part, and that part with the block it is
in. -/
def decodeBlocks (size : Nat) : Nat → Bytes → Bytes → List Char × Option (DecodeError × Bytes)
  | 0, _, _ => ([], none)
  | fuel + 1, carried, bytes =>
    let block := carried ++ bytes.take size
    if bytes.isEmpty then
      match charsOf 0 (pieces block) with
      | .ok cs => (cs, none)
      | .error e => ([], some (e, block))
    else
      let (done, last) := piecesFrom none block
      match charsOf 0 done with
      | .error e => ([], some (e, block))
      | .ok cs =>
        let kept := match last with
          | none => []
          | some part => block.drop (block.length - part.seen)
        let (more, stopped) := decodeBlocks size fuel kept (bytes.drop size)
        (cs ++ more, stopped)

/-- Reads bytes in blocks of 8192. -/
def decodeStream (bytes : Bytes) : List Char × Option (DecodeError × Bytes) :=
  decodeBlocks 8192 (bytes.length / 8192 + 3) [] bytes

end Dissect.Text
