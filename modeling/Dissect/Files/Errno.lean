/-
# Errors of the operating system

The errors that file operations and the start of a program end in, with their numbers and texts.
-/
import Dissect.Fault.Basic

namespace Dissect.Files

/-- An error of the operating system. -/
inductive Errno where
  | noEntry
  | argumentsTooLong
  | execFormat
  | accessDenied
  | exists
  | notDirectory
  | isDirectory
  | nameTooLong
  | notEmpty
  | tooManyLinks
  | valueTooLarge
deriving DecidableEq, Repr

namespace Errno

/-- The number of an error. -/
def number : Errno → Int
  | .noEntry => 2
  | .argumentsTooLong => 7
  | .execFormat => 8
  | .accessDenied => 13
  | .exists => 17
  | .notDirectory => 20
  | .isDirectory => 21
  | .nameTooLong => 36
  | .notEmpty => 39
  | .tooManyLinks => 40
  | .valueTooLarge => 75

/-- The text of an error. -/
def text : Errno → String
  | .noEntry => "No such file or directory"
  | .argumentsTooLong => "Argument list too long"
  | .execFormat => "Exec format error"
  | .accessDenied => "Permission denied"
  | .exists => "File exists"
  | .notDirectory => "Not a directory"
  | .isDirectory => "Is a directory"
  | .nameTooLong => "File name too long"
  | .notEmpty => "Directory not empty"
  | .tooManyLinks => "Too many levels of symbolic links"
  | .valueTooLarge => "Value too large for defined data type"

/-- The failure of an operation on a file. -/
def fault (e : Errno) (file : String) : Fault :=
  .ofArgs .osError [.int e.number, .str e.text, .str file]

/-- The errors that only mean that there is nothing at a path. -/
def meansAbsent (e : Errno) : Bool :=
  e == .noEntry || e == .notDirectory || e == .tooManyLinks

/-- The result of an operation on a file, its error turned into a failure. -/
def name {α : Type} (file : String) : Except Errno α → Except Fault α
  | .ok a => .ok a
  | .error e => .error (e.fault file)

end Errno

end Dissect.Files
