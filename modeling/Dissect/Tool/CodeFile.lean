/-
# Files with the code of modules

A module's code is in a file whose suffix says which form it has: a native library, a source file
or a compiled one, looked for in that order.  Only sources can hold code that runs here; of the
other forms this module says why a file is refused.
-/
import Dissect.Files.Disk

namespace Dissect

open Text (Bytes)

/-- The forms of code. -/
inductive CodeForm where
  | native
  | source
  | compiled
deriving DecidableEq, Repr

namespace CodeForm

/-- The suffixes of code files with the forms they tell, in the order in which they are tried. -/
def suffixes : List (String × CodeForm) :=
  [(".cpython-311-x86_64-linux-gnu.so", .native), (".abi3.so", .native), (".so", .native),
   (".py", .source), (".pyc", .compiled)]

/-! ## 1. Native libraries -/

/-- The size of the header of a native library. -/
def headerSize : Nat := 64

/-- The bytes that a native library starts with. -/
def nativeMagic : Bytes := [0x7f, 0x45, 0x4c, 0x46]

/-- The byte after them in a library for 64-bit machines. -/
def wideClass : UInt8 := 2

/-- What is wrong with bytes as a native library. -/
def nativeTrouble (data : Bytes) : String :=
  if data.length < headerSize then "file too short"
  else if data.take 4 != nativeMagic then "invalid ELF header"
  else if data[4]? != some wideClass then "wrong ELF class: ELFCLASS32"
  else "ELF file version does not match current one"

/-- The failure to load a native library.  A script or a program is a text, longer than a header. -/
def nativeFault (path : String) (content : Files.Content) : Fault :=
  let why :=
    match content with
    | .script _ | .program _ | .shell => "invalid ELF header"
    | content => nativeTrouble content.data
  .ofText .importError (path ++ ": " ++ why)

/-! ## 2. Compiled files -/

/-- The bytes that a compiled file starts with. -/
def compiledMagic : Bytes := [0xa7, 0x0d, 0x0d, 0x0a]

/-- The number that four bytes stand for, the least byte first. -/
def littleEndian (data : Bytes) : Nat := data.foldr (fun b n => b.toNat + 256 * n) 0

/-- The codes of objects that need no more bytes and are no code. -/
def plainCodes : List Char := ['N', 'T', 'F', 'S', '.']

/-- The codes of objects that a four-byte number or more follows. -/
def longCodes : List Char :=
  ['i', 'l', 'f', 'g', 'x', 'y', 's', 't', 'u', '(', '[', '\x7b', 'c', '<', '>', 'r', 'I', 'a', 'A']

/-- The codes of objects that a one-byte number follows. -/
def shortCodes : List Char := ['z', 'Z', ')']

/-- The failure of an object that is read from bytes and is no code. -/
def objectFault (path : String) (data : Bytes) : Fault :=
  match data with
  | [] => .ofText .eofError "EOF read where object expected"
  | first :: rest =>
    let code := Char.ofNat (first.toNat % 0x80)
    let noCode := Fault.ofText .importError ("Non-code object in " ++ Text.quote path)
    if plainCodes.contains code then noCode
    else if code = '0' then .ofText .typeError "NULL object in marshal data for object"
    else if code = 'i' && 4 ≤ rest.length then noCode
    else if longCodes.contains code then .ofText .eofError "marshal data too short"
    else if shortCodes.contains code then .ofText .eofError "EOF read where not expected"
    else .ofText .valueError "bad marshal data (unknown type code)"

/-- The failure to load a module from a compiled file. -/
def compiledFault (name path : String) (data : Bytes) : Fault :=
  let quoted := Text.quote name
  let flags := littleEndian ((data.drop 4).take 4)
  if data.take 4 != compiledMagic then
    .ofText .importError
      ("bad magic number in " ++ quoted ++ ": " ++ Text.quoteBytes (data.take 4))
  else if data.length < 16 then
    .ofText .eofError ("reached EOF while reading pyc header of " ++ quoted)
  else if 3 < flags then
    .ofText .importError ("invalid flags " ++ toString flags ++ " in " ++ quoted)
  else objectFault path (data.drop 16)

/-! ## 3. Sources -/

/-- The failure of source text that holds a NUL. -/
def nulSourceFault : Fault :=
  .ofText .syntaxError "source code string cannot contain null bytes"

/-- The code that a file's content has.  Bytes that are not a script hold nothing that runs. -/
def script (content : Files.Content) : Except Fault Script :=
  match content with
  | .script script => .ok script
  | content => if content.data.contains 0 then .error nulSourceFault else .ok {}

end CodeForm

end Dissect
