/-
# Settings files

A settings file holds one assignment `key=value` a line.  Blanks around the line, the key and the
value do not count, a value may stand in quotes, blank lines and comments are passed over, and any
other line is reported and passed over.
-/
import Dissect.Files.Reading
import Dissect.Host
import Dissect.Text.Blank
import Dissect.Text.Lines

namespace Dissect.Settings

/-- What a settings file assigns, in the order in which the keys first appear. -/
abbrev Values := List (String × String)

/-! ## 1. Lines -/

/-- What a line says. -/
inductive Line where
  | nothing
  | malformed
  | assignment (key value : List Char)
deriving DecidableEq, Repr

/-- A value without the quotes around it, if the same quote stands at both ends. -/
def unquote (cs : List Char) : List Char :=
  match cs with
  | first :: second :: rest =>
    let tail := second :: rest
    if (first = '\'' || first = '"') && tail.getLast? = some first then tail.dropLast else cs
  | _ => cs

/-- What a line says, given its characters. -/
def Line.ofChars (raw : List Char) : Line :=
  match Text.trim raw with
  | [] => .nothing
  | '#' :: _ => .nothing
  | line =>
    match Text.cutChars '=' line with
    | none => .malformed
    | some (key, value) => .assignment (Text.trim key) (unquote (Text.trim value))

/-- The warning about a line. -/
def malformedMessage (number : Nat) : String :=
  ".env line " ++ toString number ++ ": Invalid format (no '=')"

/-- The values after a line.  An assignment to the empty key is dropped. -/
def Line.apply (line : Line) (values : Values) : Values :=
  match line with
  | .assignment key value =>
    if key.isEmpty then values
    else Assoc.set (String.ofList key) (String.ofList value) values
  | _ => values

/-- The values of all lines. -/
def valuesOf (lines : List (List Char)) : Values :=
  lines.foldl (fun values line => (Line.ofChars line).apply values) []

/-- The warnings about the lines, the first of which has the given number. -/
def warningsFrom (number : Nat) : List (List Char) → List String
  | [] => []
  | line :: rest =>
    (if Line.ofChars line = .malformed then [malformedMessage number] else []) ++
      warningsFrom (number + 1) rest

/-! ## 2. Files -/

/-- What is read from the bytes of a file: its lines, and the failure at which the reading stopped.
Lines that were not complete by then are not read. -/
def linesOfBytes (data : Text.Bytes) : List (List Char) × Option Fault :=
  match Text.decodeStream data with
  | (cs, none) => (Text.linesOf (Text.unifyNewlines cs), none)
  | (cs, some (e, block)) =>
    let settled := if cs.getLast? = some '\r' then cs.dropLast else cs
    (Text.linesOf (Text.completeLines (Text.unifyNewlines settled)),
      some (Files.decodeFault e block))

/-- Writes the warnings. -/
def warn (messages : List String) : Run Unit :=
  messages.forM fun message => Run.note .warning message

/-- The values in the settings file at a path.  A file that cannot be opened is reported and holds
nothing; a text that no path can be names no file and is a failure. -/
def valuesAt (path : String) : Run Values := do
  match (← Run.look fun host => host.disk.read path) with
  | .error e =>
    match Files.Disk.pathFault? path with
    | some fault => throw fault
    | none =>
      Run.note .warning ("Failed to parse .env file: " ++ (e.fault path).message)
      return []
  | .ok data =>
    let (lines, stopped) := linesOfBytes data
    warn (warningsFrom 1 lines)
    match stopped with
    | none => return valuesOf lines
    | some fault => throw fault

end Dissect.Settings
