/-
# Tagged documents

A document that keeps the kind of every value.  Nothing, truth values, integers, texts and lists
stand for themselves; any other value is an object with one member, whose key is the tag of the
kind.  Reading a tagged document fails only where it has another shape or a dictionary in it has a
key that can change.
-/
import Dissect.Json.Parser
import Dissect.Value.Parts

namespace Dissect.Value

open Text (Bytes)

/-! ## 1. Writing -/

mutual

/-- The tagged document of a value. -/
def tagged : Value → Json
  | .none => .null
  | .bool b => .bool b
  | .int n => .int n
  | .real x => .obj [("$float", .str x.text)]
  | .str s => .str s
  | .bytes data => .obj [("$bytes", .str (Text.hex data))]
  | .buffer data => .obj [("$bytearray", .str (Text.hex data))]
  | .view data => .obj [("$memoryview", .str (Text.hex data))]
  | .list items => .arr (taggedItems items)
  | .tuple items => .obj [("$tuple", .arr (taggedItems items))]
  | .dict entries => .obj [("$dict", .arr (taggedEntries entries))]
  | .path p => .obj [("$path", .str p.text)]

/-- The tagged documents of items. -/
def taggedItems : List Value → List Json
  | [] => []
  | item :: rest => tagged item :: taggedItems rest

/-- The entries of a dictionary as pairs of tagged documents. -/
def taggedEntries : List (Value × Value) → List Json
  | [] => []
  | (key, value) :: rest => .arr [tagged key, tagged value] :: taggedEntries rest

end

/-! ## 2. Reading -/

/-- The failure of a document of another shape. -/
def shapeFault (expected : String) : Fault := .ofText .valueError (expected ++ " expected")

/-- The bytes that hexadecimal digits name. -/
def bytesOfHex (s : String) : Except Fault Bytes :=
  match Text.ofHex? s with
  | some data => .ok data
  | Option.none => .error (shapeFault "hexadecimal digits")

/-- The number that a text names. -/
def realOfText (s : String) : Except Fault Double :=
  match s, Json.parse? s with
  | "nan", _ => .ok .nan
  | "inf", _ => .ok (.infinite false)
  | "-inf", _ => .ok (.infinite true)
  | _, some (.real x) => .ok x
  | _, some (.int n) => .ok (.ofInt n)
  | _, _ => .error (shapeFault "number")

/-- The dictionary with the given entries, none of whose keys may be one that can change. -/
def dictionary (entries : List (Value × Value)) : Except Fault Value :=
  match entries.findSome? fun (key, _) => key.keyObstacle? with
  | some part => .error (part.changeableFault)
  | Option.none => .ok (ofEntries entries)

mutual

/-- The value of a tagged document. -/
def ofTagged : Json → Except Fault Value
  | .null => .ok .none
  | .bool b => .ok (.bool b)
  | .int n => .ok (.int n)
  | .real x => .ok (.real x)
  | .str s => .ok (.str s)
  | .arr items => return .list (← ofTaggedItems items)
  | .obj [("$bytes", .str s)] => return .bytes (← bytesOfHex s)
  | .obj [("$bytearray", .str s)] => return .buffer (← bytesOfHex s)
  | .obj [("$memoryview", .str s)] => return .view (← bytesOfHex s)
  | .obj [("$tuple", .arr items)] => return .tuple (← ofTaggedItems items)
  | .obj [("$float", .str s)] => return .real (← realOfText s)
  | .obj [("$path", .str s)] => .ok (.path (.ofText s))
  | .obj [("$dict", .arr entries)] => do dictionary (← ofTaggedEntries entries)
  | .obj _ => .error (shapeFault "tagged value")

/-- The values of tagged documents. -/
def ofTaggedItems : List Json → Except Fault (List Value)
  | [] => .ok []
  | item :: rest => return (← ofTagged item) :: (← ofTaggedItems rest)

/-- The entries that pairs of tagged documents name. -/
def ofTaggedEntries : List Json → Except Fault (List (Value × Value))
  | [] => .ok []
  | .arr [key, value] :: rest =>
    return (← ofTagged key, ← ofTagged value) :: (← ofTaggedEntries rest)
  | _ :: _ => .error (shapeFault "pair")

end

end Dissect.Value
