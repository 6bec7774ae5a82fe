/-
# Command files

A text file that is executed names its interpreter in a first line that begins with `#!`.  Only the
head of the file is looked at, as if it ended in NULs; the line may give the interpreter one
argument, which keeps the blanks inside it.
-/
import Dissect.Text.Utf8

namespace Dissect

open Text (Bytes)

namespace CommandFile

/-- How many bytes of a file are looked at. -/
def headBytes : Nat := 256

/-- The head of a file. -/
def head (data : Bytes) : Bytes :=
  data.take headBytes ++ List.replicate (headBytes - data.length) 0

/-- A space or a tab. -/
def isGap (b : UInt8) : Bool := b = 0x20 || b = 0x09

/-- The line behind the mark at the front of a head.  Without an end of line before the first NUL it
is all of the head, and the name in it has to end within the head. -/
def line? (head : Bytes) : Option Bytes :=
  let rest := head.drop 2
  let line := rest.takeWhile fun b => b != 10 && b != 0
  if rest[line.length]? = some 10 then some line
  else if (rest.dropWhile isGap).any fun b => isGap b || b = 0 then some rest.dropLast
  else none

/-- The argument that follows the name of an interpreter. -/
def argument? : Bytes → Option String
  | [] => none
  | b :: rest =>
    let argument := rest.dropWhile isGap
    if !isGap b || argument.isEmpty then none
    else some (Text.decodeLossy (argument.takeWhile (· != 0)))

/-- The interpreter that a file names and the argument it may give it. -/
def interpreter? (data : Bytes) : Option (String × Option String) :=
  match data with
  | 0x23 :: 0x21 :: _ => do
    let line ← line? (head data)
    let words := ((line.reverse.dropWhile isGap).reverse).dropWhile isGap
    if words.isEmpty then none
    else
      let name := words.takeWhile fun b => !isGap b && b != 0
      return (Text.decodeLossy name, argument? (words.drop name.length))
  | _ => none

end CommandFile

end Dissect
