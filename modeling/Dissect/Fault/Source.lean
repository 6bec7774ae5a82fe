/-
# Malformed sources

A failure about malformed source text has a message and may have a second argument that says where:
the file, the line, the column, the text of the line, and where the malformed part ends.  The
message then names the file and the line.
-/
import Dissect.Value

namespace Dissect

/-- Where source text is malformed, as far as is known. -/
structure SourcePlace where
  file : Value
  line : Value
  column : Value
  text : Value
  endLine : Value := .none
  endColumn : Value := .none
deriving Repr

namespace SourcePlace

/-- The place that the arguments of a failure tell. -/
def ofArgs? : List Value → Option SourcePlace
  | [_, info] =>
    match info.elements? with
    | some [file, line, column, text] => some { file, line, column, text }
    | some [file, line, column, text, endLine, endColumn] =>
      some { file, line, column, text, endLine, endColumn }
    | _ => none
  | _ => none

/-- The file's name without its directories. -/
def fileName? (place : SourcePlace) : Option String :=
  match place.file with
  | .str path => some ((Text.splitAt path '/').getLast?.getD "")
  | _ => none

/-- The line's number; one that does not fit in 64 bits is told as -1. -/
def lineNumber? (place : SourcePlace) : Option Int :=
  match place.line with
  | .int n => some (if -(Nat.pow 2 63 : Int) ≤ n && n < Nat.pow 2 63 then n else -1)
  | _ => none

/-- What a message adds about a place. -/
def note (place : SourcePlace) : String :=
  match place.fileName?, place.lineNumber? with
  | some file, some line => " (" ++ file ++ ", line " ++ toString line ++ ")"
  | some file, none => " (" ++ file ++ ")"
  | none, some line => " (line " ++ toString line ++ ")"
  | none, none => ""

/-- What a message adds about the place that the arguments of a failure tell. -/
def noteOf (args : List Value) : String := ((ofArgs? args).map note).getD ""

end SourcePlace

end Dissect
