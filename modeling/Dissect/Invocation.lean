/-
# Invocations

One run of a backend's entry point on one class file, and what its ending means.  A failure that a
benign signal describes is a normal end; any other request to exit is a failure that tells the exit
code, if it can be told; every other failure passes on unchanged.
-/
import Dissect.Backend
import Dissect.Value.Written

namespace Dissect.Invocation

/-- The failure of a tool that asked to exit.  It tells the code; where that cannot be written, the
trouble with it arises instead. -/
def exitFault (request : Fault) : Fault :=
  match request.exitCode.demandWritten with
  | .ok () =>
    { kind := .toolExitError, args := [request.exitCode], cause := some request,
      context := some request }
  | .error trouble => trouble.whileHandling request

/-- What the ending of an entry point means. -/
def settle (signals : List Signal) : Except Fault Unit → Except Fault Unit
  | .ok () => .ok ()
  | .error fault =>
    if fault.isA .systemExit then
      match Signal.find? signals fault with
      | some _ => .ok ()
      | none => .error (exitFault fault)
    else if fault.kind.isOrdinary then
      match Signal.find? signals fault with
      | some _ => .ok ()
      | none => .error fault
    else .error fault

/-- Runs the entry point of the tool under a root on a class file. -/
def invoke (b : Backend) (root resource : Path) : Run Unit :=
  b.withEntry root fun call => do
    let ending ← Run.attempt (call (b.argumentsFor resource))
    Run.ofExcept (settle b.signals ending)

end Dissect.Invocation
