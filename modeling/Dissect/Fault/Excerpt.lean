/-
# Excerpts of malformed sources

What a report shows of malformed source text: the file and the line, the text of the line, and marks
under the malformed part.  Whoever made the failure may have given any values for these, so showing
them can fail as well; the first value that cannot be shown decides how.
-/
import Dissect.Text.Blank
import Dissect.Value.Arithmetic
import Dissect.Value.Parts
import Dissect.Value.Written

namespace Dissect.SourcePlace

/-! ## 1. The place -/

/-- The demand for numbers of lines that can be written.  It comes before anything is shown. -/
def demandLines (place : SourcePlace) : Except Fault Unit := do
  place.line.demandWritten
  place.endLine.demandWritten

/-- How a report names the place: in a line of its own, where the line of source text is known, and
else in a note on the last line of the report. -/
def naming (place : SourcePlace) : Except Fault (List String × String) :=
  match place.line, place.file with
  | .none, .none => return ([], "")
  | .none, file => return ([], " (" ++ (← file.told) ++ ")")
  | line, file => do
    let file ← if file.truthy then file.told else pure "<string>"
    return (["  File \"" ++ file ++ "\", line " ++ line.text], "")

/-! ## 2. The line -/

/-- The line of source text, if there is one. -/
def sourceLine (place : SourcePlace) : Except Fault (Option String) :=
  match place.text with
  | .none => .ok none
  | .str text => .ok (some text)
  | .bytes _ | .buffer _ =>
    .error (.ofText .typeError "a bytes-like object is required, not 'str'")
  | other =>
    .error (.ofText .attributeError ("'" ++ other.kind ++ "' object has no attribute 'rstrip'"))

/-! ## 3. The malformed part -/

/-- The column behind the malformed part, where one is given.  Nothing and zero give none. -/
def givenStop (place : SourcePlace) : Except Fault (Option Value) :=
  match place.endColumn.keyObstacle? with
  | some part => .error part.changeableFault
  | none =>
    .ok (if place.endColumn == .none || place.endColumn.isZero then none else some place.endColumn)

/-- The malformed part is told as one character: it ends where it begins, or its end is -1. -/
def isPoint (column : Value) : Option Value → Bool
  | none => column != .real .nan
  | some stop => column.sameKey stop || stop.sameNumber (.int (-1))

/-- The column behind the malformed part, as far as it differs from the column after the first. -/
def stop (place : SourcePlace) : Except Fault (Option Value) := do
  let given ← place.givenStop
  if isPoint place.column given then
    place.column.demandSummand
    return none
  else return some (given.getD place.column)

/-- The greatest number of marks that there is room for. -/
def maxMarks : Int := Nat.pow 2 35

/-- The number of marks between two columns. -/
def markCount (start : Int) : Option Value → Except Fault Nat
  | none => .ok 1
  | some stop =>
    match stop.whole?.map (· - start) with
    | none => .error (.ofText .typeError "can't multiply sequence by non-int of type 'float'")
    | some count =>
      if !Value.fitsWord count then
        .error (.ofText .overflowError "cannot fit 'int' into an index-sized integer")
      else if maxMarks < count then .error { kind := .memoryError }
      else .ok count.toNat

/-- The marks under the malformed part of a line that lost so many characters at its start. -/
def marks (place : SourcePlace) (lost : Nat) (line : List Char) : Except Fault (List String) := do
  if place.column == .none then return []
  let stop ← place.stop
  place.column.demandMinuend
  (stop.getD place.column).demandMinuend
  if !place.column.reaches (lost + 1) then return []
  match place.column.whole? with
  | none =>
    .error
      (.ofText .typeError "slice indices must be integers or None or have an __index__ method")
  | some start =>
    let space :=
      (line.take (start - 1 - lost).toNat).map fun c => if Text.isBlank c then c else ' '
    let count ← markCount start stop
    return [String.ofList ("    ".toList ++ space ++ List.replicate count '^')]

/-! ## 4. The excerpt -/

/-- The line of source text, without what surrounds it, and the marks under it. -/
def excerpt (place : SourcePlace) : Except Fault (List String) := do
  match ← place.sourceLine with
  | none => return []
  | some text =>
    let whole := (text.toList.reverse.dropWhile (· = '\n')).reverse
    let line := whole.dropWhile fun c => c = ' ' || c = '\n' || c = '\x0c'
    let marks ← place.marks (whole.length - line.length) line
    return String.ofList ("    ".toList ++ line) :: marks

/-- What a report shows of a place: lines before its last line, and a note on that one. -/
def shown (place : SourcePlace) : Except Fault (List String × String) := do
  let (head, note) ← place.naming
  return (head ++ (← place.excerpt), note)

end Dissect.SourcePlace
