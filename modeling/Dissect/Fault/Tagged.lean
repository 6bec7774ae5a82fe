/-
# Failures as documents

A failure is described by an object with the name of its class, tagged arguments, and where it has
a history the failures that caused it or were being handled.  Making it can itself fail.
-/
import Dissect.Fault.Make
import Dissect.Value.Tagged

namespace Dissect.Fault

/-- The failure of a field that is missing. -/
def missingField (key : String) : Fault := { kind := .keyError, args := [.str key] }

/-- The class of a name. -/
def classNamed (name : String) : Except Fault FaultClass :=
  match FaultClass.ofName? name with
  | some kind => .ok kind
  | none =>
    .error (.ofText .attributeError
      ("module 'builtins' has no attribute " ++ Text.quote name))

/-- The class that a document names. -/
def classOf (members : List (String × Json)) : Except Fault FaultClass :=
  match members.lookup "type" with
  | some (.str name) => classNamed name
  | some _ => .error (Value.shapeFault "class name")
  | none => .error (missingField "type")

/-- The arguments that a document gives. -/
def argsOf (members : List (String × Json)) : Except Fault (List Value) :=
  match members.lookup "args" with
  | some (.arr items) => Value.ofTaggedItems items
  | _ => .ok []

mutual

/-- The failure that a document describes; it has not been raised. -/
def ofDocument : Json → Except Fault Fault
  | .obj members => do
    let fault ← make (← classOf members) (← argsOf members)
    let history ← historyOf members
    return { fault with
      cause := history.lookup "cause", context := history.lookup "context", raised := false }
  | _ => .error (Value.shapeFault "failure")

/-- The failures before a failure, under the names of their fields. -/
def historyOf : List (String × Json) → Except Fault (List (String × Fault))
  | [] => .ok []
  | (key, document) :: rest => do
    if (key = "cause" || key = "context") && document != .null then
      return (key, ← ofDocument document) :: (← historyOf rest)
    else historyOf rest

end

end Dissect.Fault
