/-
# Parts of values

Taking a value apart by position: how many parts it has, the part at a position, and the first few
parts.  Values without positions refuse, each in its own way.
-/
import Dissect.Fault.Basic

namespace Dissect.Value

/-- The failure of a value that has no positions. -/
def positionFault (v : Value) : Fault :=
  .ofText .typeError ("'" ++ v.kind ++ "' object is not subscriptable")

/-- The failure of a value that can change where a key is wanted. -/
def changeableFault (part : Value) : Fault :=
  .ofText .typeError ("unhashable type: '" ++ part.kind ++ "'")

/-- The number of parts. -/
def length (v : Value) : Except Fault Nat :=
  match v.elements? with
  | some parts => .ok parts.length
  | Option.none => .error (.ofText .typeError ("object of type '" ++ v.kind ++ "' has no len()"))

/-- The part at a position; of a dictionary, the value under that number. -/
def part (v : Value) (position : Nat) : Except Fault Value :=
  match v, v.elements? with
  | .dict entries, _ =>
    match entries.find? fun (key, _) => key.sameKey (.int position) with
    | some (_, value) => .ok value
    | Option.none => .error { kind := .keyError, args := [.int position] }
  | v, Option.none => .error v.positionFault
  | _, some parts =>
    match parts[position]? with
    | some part => .ok part
    | Option.none => .error (.ofText .indexError "index out of range")

/-- The first parts, as a value of the same kind. -/
def front (count : Nat) : Value → Except Fault Value
  | .list items => .ok (.list (items.take count))
  | .tuple items => .ok (.tuple (items.take count))
  | .str s => .ok (.str (Text.take s count))
  | .bytes data => .ok (.bytes (data.take count))
  | .buffer data => .ok (.buffer (data.take count))
  | .view data => .ok (.view (data.take count))
  | .dict _ => .error (.ofText .typeError "unhashable type: 'slice'")
  | v => .error v.positionFault

end Dissect.Value
