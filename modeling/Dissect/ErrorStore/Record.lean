/-
# Error records

A record keeps all that is known of one failed disassembly, as documents, so that whatever a file
holds can be read back.  The manifest keeps a short entry for each record; entries are ordered by
their time stamps.
-/
import Dissect.Json.Number
import Dissect.Sorting

namespace Dissect

/-- The record of a failure. -/
structure ErrorRecord where
  timestamp : Json
  errorId : Json
  operation : Json
  resultKind : Json
  errorType : Json
  errorMessage : Json
  backend : Json := .null
  className : Json := .null
  toolRoot : Json := .null
  toolOutput : Json := .null
  traceback : Json := .null
deriving Repr

namespace ErrorRecord

/-- The fields of a record in the order in which they are written. -/
def members (r : ErrorRecord) : List (String × Json) :=
  [("timestamp", r.timestamp), ("error_id", r.errorId), ("operation", r.operation),
   ("result_kind", r.resultKind), ("error_type", r.errorType),
   ("error_message", r.errorMessage), ("backend", r.backend), ("class_name", r.className),
   ("tool_root", r.toolRoot), ("tool_output", r.toolOutput), ("traceback", r.traceback)]

/-- The names of the fields that every record has. -/
def required : List String :=
  ["timestamp", "error_id", "operation", "result_kind", "error_type", "error_message"]

/-- The names of the other fields. -/
def optional : List String :=
  ["backend", "class_name", "tool_root", "tool_output", "traceback"]

/-- The record with the given fields, unless one is missing or unknown. -/
def ofMembers? (members : List (String × Json)) : Option ErrorRecord :=
  if members.all fun (key, _) => required.contains key || optional.contains key then do
    let field (key : String) : Json := (members.lookup key).getD .null
    return {
      timestamp := ← members.lookup "timestamp"
      errorId := ← members.lookup "error_id"
      operation := ← members.lookup "operation"
      resultKind := ← members.lookup "result_kind"
      errorType := ← members.lookup "error_type"
      errorMessage := ← members.lookup "error_message"
      backend := field "backend"
      className := field "class_name"
      toolRoot := field "tool_root"
      toolOutput := field "tool_output"
      traceback := field "traceback" }
  else none

/-- The fields of a record make up the record again. -/
theorem ofMembers?_members (r : ErrorRecord) : ofMembers? r.members = some r := by
  rfl

end ErrorRecord

/-! ## 1. Manifests -/

/-- An entry of a manifest: an object with a number under `timestamp` and anything under
`error_id`. -/
abbrev ManifestEntry := List (String × Json)

namespace ManifestEntry

/-- The number of characters of a message that an entry keeps. -/
def messageLimit : Nat := 200

/-- The entry of a record with the given message. -/
def ofRecord (r : ErrorRecord) (message : String) : ManifestEntry :=
  [("error_id", r.errorId), ("timestamp", r.timestamp), ("operation", r.operation),
   ("result_kind", r.resultKind), ("error_type", r.errorType),
   ("error_message", .str (Text.take message messageLimit)), ("class_name", r.className)]

/-- A document that is an entry. -/
def ofJson? : Json → Option ManifestEntry
  | .obj members =>
    if ((members.lookup "timestamp").any Json.isNumber) && (members.lookup "error_id").isSome then
      some members
    else none
  | _ => none

/-- The time stamp of an entry. -/
def stamp (e : ManifestEntry) : Json := (e.lookup "timestamp").getD .null

/-- The id of an entry. -/
def id (e : ManifestEntry) : Json := (e.lookup "error_id").getD .null

/-- The first entry is older than the second. -/
def olderThan (e f : ManifestEntry) : Bool := Json.numberLt (stamp e) (stamp f)

/-- The entries from the newest to the oldest; entries of one stamp keep their order. -/
def newestFirst (entries : List ManifestEntry) : List ManifestEntry :=
  Sorting.sortFalling olderThan (fun e => (stamp e).isOrdered) entries

/-- The entries from the oldest to the newest; entries of one stamp keep their order. -/
def oldestFirst (entries : List ManifestEntry) : List ManifestEntry :=
  Sorting.sort olderThan (fun e => (stamp e).isOrdered) entries

end ManifestEntry

end Dissect
