/-
# Failure reports

The text of a failure together with its history.  What came first is told first: the cause of a
failure, or, when it has none, the failure that was being handled; then the failure itself, under a
heading that only a raised failure has.  A report fails where the details of malformed source text
cannot be shown.  The numbers of lines in all of the history are written before anything is told, so
those that are too long count first.
-/
import Dissect.Fault.Excerpt

namespace Dissect.Fault

/-- The heading over a raised failure. -/
def heading : String := "Traceback (most recent call last):\n"

/-- What stands between a cause and its consequence. -/
def causeBridge : String :=
  "\nThe above exception was the direct cause of the following exception:\n\n"

/-- What stands between a failure and one that arose while it was handled. -/
def contextBridge : String :=
  "\nDuring handling of the above exception, another exception occurred:\n\n"

/-- Where source text is malformed, for a failure about that. -/
def place? (fault : Fault) : Option SourcePlace :=
  if fault.kind.isA .syntaxError then SourcePlace.ofArgs? fault.args else none

/-- The demand for numbers of lines that can be written, for a failure about malformed source text. -/
def demandLines (fault : Fault) : Except Fault Unit :=
  match fault.place? with
  | some place => place.demandLines
  | none => .ok ()

/-- The same demand of a failure and of its history, what came last first. -/
def demandHistory : Fault → Except Fault Unit
  | ⟨kind, args, some cause, context, raised⟩ => do
    demandLines ⟨kind, args, some cause, context, raised⟩
    demandHistory cause
  | ⟨kind, args, none, some context, raised⟩ => do
    demandLines ⟨kind, args, none, some context, raised⟩
    demandHistory context
  | ⟨kind, args, none, none, raised⟩ => demandLines ⟨kind, args, none, none, raised⟩

/-- What a report shows of malformed source text: lines before its last line, and a note on that
one. -/
def shownPlace (fault : Fault) : Except Fault (List String × String) :=
  match fault.place? with
  | some place => place.shown
  | none => .ok ([], "")

/-- The message in a report.  One about malformed source text without details is said to have none,
and one that cannot be told is said to have failed. -/
def reportedMessage (fault : Fault) : Except Fault String :=
  if fault.kind.isA .syntaxError then
    let text := fault.args.head?.getD .none
    if text.truthy then text.told else .ok "<no detail available>"
  else .ok (if fault.trouble?.isSome then "<exception str() failed>" else fault.message)

/-- The last line of a report: the class, and the message if there is one. -/
def finalLine (fault : Fault) (message : String) : String :=
  fault.kind.qualified ++ (if message = "" then "" else ": " ++ message) ++ "\n"

/-- The line stands further in than a heading. -/
def isIndented (line : String) : Bool := line.toList.take 4 = "    ".toList

/-- What a report puts under the heading of a raised failure.  The calls that the failure passed
through would come first; they are left out, and every indented line that follows with them. -/
def underHeading (lines : List String) : List String :=
  (lines.flatMap (Text.splitAt · '\n')).dropWhile isIndented

/-- The report on the failure alone. -/
def ownReport (fault : Fault) : Except Fault String := do
  let (lines, note) ← fault.shownPlace
  let message ← fault.reportedMessage
  let shown := if fault.raised then underHeading lines else lines
  return (if fault.raised then heading else "") ++ String.join (shown.map (· ++ "\n")) ++
    fault.finalLine (message ++ note)

/-- The reports on the history of a failure and on itself, one after the other. -/
def reports : Fault → Except Fault String
  | ⟨kind, args, some cause, context, raised⟩ => do
    let before ← reports cause
    return before ++ causeBridge ++ (← ownReport ⟨kind, args, some cause, context, raised⟩)
  | ⟨kind, args, none, some context, raised⟩ => do
    let before ← reports context
    return before ++ contextBridge ++ (← ownReport ⟨kind, args, none, some context, raised⟩)
  | ⟨kind, args, none, none, raised⟩ => ownReport ⟨kind, args, none, none, raised⟩

/-- The report on a failure and its history. -/
def report (fault : Fault) : Except Fault String := do
  fault.demandHistory
  fault.reports

end Dissect.Fault
