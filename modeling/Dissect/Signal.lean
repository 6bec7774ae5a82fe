/-
# Benign signals

Some entry points end a successful run by raising.  A signal describes such an ending: a class of
failures and, where the class is not enough, a test on the failure itself.
-/
import Dissect.Fault.Basic

namespace Dissect

/-- A failure that counts as normal completion. -/
structure Signal where
  kind : FaultClass
  accepts : Fault → Bool := fun _ => true
  description : String := ""

namespace Signal

/-- The failure is one that the signal describes. -/
def matches? (signal : Signal) (fault : Fault) : Bool :=
  fault.isA signal.kind && signal.accepts fault

/-- A request to exit that reports no trouble: its code is nothing or equals zero. -/
def isCleanCode (code : Value) : Bool :=
  match code with
  | .none => true
  | code => code.isZero

/-- An entry point asks to exit with status zero. -/
def cleanExit : Signal where
  kind := .systemExit
  accepts fault := isCleanCode fault.exitCode
  description := "entry point requested exit with status 0"

/-- The first of the signals that describes a failure. -/
def find? (signals : List Signal) (fault : Fault) : Option Signal :=
  signals.find? (·.matches? fault)

/-- The place of the first signal that describes a failure. -/
def index? (signals : List Signal) (fault : Fault) : Option Nat :=
  signals.findIdx? (·.matches? fault)

end Signal

end Dissect
