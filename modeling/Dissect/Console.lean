/-
# The console and its captures

The process has a current output stream and a current error stream.  A capture puts a buffer of its
own in place of both and remembers what it replaced; finishing it puts those streams back, whatever
is current by then, and closes the buffer.  A capture that is finished keeps its text for good.
-/
import Dissect.Fault.Basic

namespace Dissect

/-- Where writes go: to one of the two outer streams, or into a capture's buffer. -/
inductive Sink where
  | stdout
  | stderr
  | capture (id : Nat)
deriving DecidableEq, Repr

/-- A capture: the streams it replaced, what was written into it, and whether it is over. -/
structure Capture where
  previousOut : Sink
  previousErr : Sink
  text : String := ""
  finished : Bool := false
deriving DecidableEq, Repr

/-- The state of the streams.  Captures are numbered in the order they began. -/
structure Console where
  out : Sink := .stdout
  err : Sink := .stderr
  stdoutText : String := ""
  stderrText : String := ""
  captures : List Capture := []
deriving DecidableEq, Repr

namespace Console

/-- The failure of a write into a closed buffer. -/
def closedFault : Fault := .ofText .valueError "I/O operation on closed file"

/-- Writes to a sink. -/
def write (c : Console) (sink : Sink) (s : String) : Except Fault Console :=
  match sink with
  | .stdout => .ok { c with stdoutText := c.stdoutText ++ s }
  | .stderr => .ok { c with stderrText := c.stderrText ++ s }
  | .capture id =>
    match c.captures[id]? with
    | none => .error closedFault
    | some capture =>
      if capture.finished then .error closedFault
      else .ok { c with captures := c.captures.set id { capture with text := capture.text ++ s } }

/-- Writes to the current output stream. -/
def writeOut (c : Console) (s : String) : Except Fault Console := c.write c.out s

/-- Writes to the current error stream. -/
def writeErr (c : Console) (s : String) : Except Fault Console := c.write c.err s

/-- Begins a capture: its number, and the console with the buffer in place of both streams. -/
def begin (c : Console) : Nat × Console :=
  let id := c.captures.length
  (id, { c with
    out := .capture id, err := .capture id,
    captures := c.captures ++ [{ previousOut := c.out, previousErr := c.err }] })

/-- Finishes a capture.  Finishing it again changes nothing. -/
def finish (c : Console) (id : Nat) : Console :=
  match c.captures[id]? with
  | none => c
  | some capture =>
    if capture.finished then c
    else
      { c with
        out := capture.previousOut, err := capture.previousErr,
        captures := c.captures.set id { capture with finished := true } }

/-- What a capture has given: nothing until it is finished. -/
def textOf (c : Console) (id : Nat) : String :=
  match c.captures[id]? with
  | some capture => if capture.finished then capture.text else ""
  | none => ""

/-- Captures while some work is done, which is told the number of the capture.  The capture is
finished at the end, whichever way the work ends. -/
def capturing {α : Type} (c : Console) (work : Nat → Console → α × Console) : α × Console :=
  let (id, opened) := c.begin
  let (result, c) := work id opened
  (result, c.finish id)

/-- The capture is over. -/
def isFinished (c : Console) (id : Nat) : Bool := (c.captures[id]?).any (·.finished)

/-! ## 1. Laws -/

theorem finish_finish (c : Console) (id : Nat) : (c.finish id).finish id = c.finish id := by
  unfold finish
  cases h : c.captures[id]? with
  | none => simp [h]
  | some capture =>
    have hid : id < c.captures.length := by
      rw [List.getElem?_eq_some_iff] at h; exact h.1
    by_cases hf : capture.finished = true
    · simp [h, hf]
    · simp [hf, List.getElem?_set_self hid]

/-- A capture that is begun and finished at once leaves the streams as they were. -/
theorem finish_begin (c : Console) :
    ((c.begin.2.finish c.begin.1).out, (c.begin.2.finish c.begin.1).err) = (c.out, c.err) := by
  simp [begin, finish]

end Console

end Dissect
