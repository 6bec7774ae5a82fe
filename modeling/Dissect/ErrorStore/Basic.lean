/-
# The error store

A directory of error records: a file for each record, a manifest with the newest first, and
statistics.  The store keeps a bounded number of records.  Files that cannot be read or have the
wrong shape are reported and count as empty; files that cannot be written are reported.
-/
import Dissect.Calendar
import Dissect.ErrorStore.Record
import Dissect.Files.Glob
import Dissect.Files.Reading
import Dissect.Json.Parser
import Dissect.Json.Printer
import Dissect.Settings.Lookup
import Dissect.Value.Arithmetic
import Dissect.Value.Written

namespace Dissect

open Files (Disk Errno)

/-- A store of error records: its directory, and how many records it keeps. -/
structure ErrorStore where
  directory : Path
  maxErrors : Int := 200
deriving DecidableEq, Repr

namespace ErrorStore

/-- The file name of the manifest. -/
def manifestName : String := "manifest.json"

/-- The file name of the statistics. -/
def statsName : String := "stats.json"

/-- The manifest's path. -/
def manifestPath (s : ErrorStore) : Path := s.directory.child manifestName

/-- The path of the statistics. -/
def statsPath (s : ErrorStore) : Path := s.directory.child statsName

/-! ## 1. Files -/

/-- The failure of writing a whole number of too many digits. -/
def digitsFault : Fault := Value.digitsFault

/-- Writes a document to a file; failing to is reported.  A number that is too long to be written
ends the file before it. -/
def save (path : Path) (document : Json) : Run Unit := do
  match Disk.pathFault? path.text with
  | some fault => throw fault
  | none => pure ()
  let host ← get
  match host.disk.write path.text (Text.encode (document.writableText (some 2))) with
  | .ok disk => do
    set { host with disk }
    if !document.isWritable then throw digitsFault
  | .error e =>
    Run.note .error ("Failed to save " ++ path.name ++ ": " ++ (e.fault path.text).message)

/-- The failure of a text that is no document. -/
def refusalFault : Json.Refusal → Fault
  | .malformed => .ofText .valueError "malformed JSON"
  | .deepArray =>
    .ofText .recursionError
      "maximum recursion depth exceeded while decoding a JSON array from a unicode string"
  | .deepObject =>
    .ofText .recursionError
      "maximum recursion depth exceeded while decoding a JSON object from a unicode string"

/-- The document in a file: none if there is no file. -/
def read (disk : Disk) (path : Path) : Except Fault (Option Json) := do
  if !(← disk.exists? path) then return none
  let text ← disk.readText path.text
  return some (← (Json.parse text).mapError refusalFault)

/-- The shapes that a file may be expected to have. -/
inductive Shape where
  | list
  | table
deriving DecidableEq, Repr

/-- The name of a shape. -/
def Shape.name : Shape → String
  | .list => "list"
  | .table => "dict"

/-- The document has the shape. -/
def Shape.admits : Shape → Json → Bool
  | .list, .arr _ => true
  | .table, .obj _ => true
  | _, _ => false

/-- What a file of a shape counts as when it holds nothing. -/
def Shape.empty : Shape → Json
  | .list => .arr []
  | .table => .obj []

/-- Trouble with a file that is reported and goes no further: the file cannot be read, or what it
holds is no document.  Nesting that is too deep is another matter. -/
def isReported (fault : Fault) : Bool := fault.isA .osError || fault.isA .valueError

/-- The document of a shape in a file.  Trouble with it is reported, and it then counts as empty. -/
def fetch (path : Path) (shape : Shape) : Run Json := do
  match read (← get).disk path with
  | .error fault =>
    if !isReported fault then throw fault
    Run.note .warning ("Failed to load " ++ path.name ++ ": " ++ fault.message)
    return shape.empty
  | .ok none => return shape.empty
  | .ok (some document) =>
    if shape.admits document then return document
    Run.note .warning
      ("Ignoring " ++ path.name ++ ": expected " ++ shape.name ++ ", got " ++ document.kind)
    return shape.empty

/-- The items of an array. -/
def itemsOf : Json → List Json
  | .arr items => items
  | _ => []

/-- The members of an object. -/
def membersOf : Json → List (String × Json)
  | .obj members => members
  | _ => []

/-- The entries of the manifest that are well formed. -/
def manifest (s : ErrorStore) : Run (List ManifestEntry) := do
  return (itemsOf (← fetch s.manifestPath .list)).filterMap ManifestEntry.ofJson?

/-- Writes the manifest. -/
def saveManifest (s : ErrorStore) (entries : List ManifestEntry) : Run Unit :=
  save s.manifestPath (.arr (entries.map Json.obj))

/-- The statistics. -/
def stats (s : ErrorStore) : Run (List (String × Json)) := do
  return membersOf (← fetch s.statsPath .table)

/-- Deletes files; one that cannot be deleted is reported.  The number of those deleted. -/
def deleteAll : List Path → Run Nat
  | [] => return 0
  | path :: rest => do
    let host ← get
    match host.disk.unlink path.text with
    | .ok disk => do
      set { host with disk }
      return (← deleteAll rest) + 1
    | .error e => do
      Run.note .warning
        ("Failed to delete " ++ path.text ++ ": " ++ (e.fault path.text).message)
      deleteAll rest

/-! ## 2. Opening -/

/-- The directory of a store for which none is set. -/
def defaultDirectory (host : Host) : Except Fault Path := do
  let home ← Settings.expandHome host (Path.ofText "~")
  return (home.child ".classview_cache").child "errors"

/-- Writes a file of a shape if there is none. -/
def initialise (path : Path) (shape : Shape) : Run Unit := do
  if !(← Run.query fun host => host.disk.exists? path) then save path shape.empty

/-- Opens the store in a directory, making what is missing. -/
def openAt (directory : Option Path) (maxErrors : Int) : Run ErrorStore := do
  let directory ← match directory with
    | some directory => pure directory
    | none => Run.query defaultDirectory
  let store : ErrorStore := { directory, maxErrors }
  Run.changeDisk fun disk => disk.makeDirectories (Disk.chain directory)
  initialise store.manifestPath .list
  initialise store.statsPath .table
  return store

/-! ## 3. Recording -/

/-- What is to be recorded of a failure besides the failure itself. -/
structure Report where
  operation : String
  resultKind : String
  backend : Option String := none
  className : Option String := none
  toolRoot : Option String := none
  toolOutput : Option String := none
  traceback : Option String := none
deriving DecidableEq, Repr

/-- The id of the record with the given number. -/
def idOf (n : Nat) : String := "disasm_" ++ String.ofList (Text.hexDigits 16 n)

/-- The reading of the clock. -/
def readClock : Run Json := do
  let host ← get
  let (now, clock) := host.clock.read
  set { host with clock }
  return now

/-- A fresh record id. -/
def freshId : Run String := do
  let host ← get
  let n := host.recordsTaken + 1
  set { host with recordsTaken := n }
  return idOf n

/-- The record of a failure. -/
def makeRecord (fault : Fault) (report : Report) : Run ErrorRecord := do
  let now ← readClock
  let id ← freshId
  let message ← Run.ofExcept fault.tell
  return {
    timestamp := now, errorId := .str id, operation := .str report.operation,
    resultKind := .str report.resultKind, errorType := .str fault.name,
    errorMessage := .str message, backend := Json.ofText? report.backend,
    className := Json.ofText? report.className, toolRoot := Json.ofText? report.toolRoot,
    toolOutput := Json.ofText? (report.toolOutput.filter (· != "")),
    traceback := Json.ofText? report.traceback }

/-- The path of a record's file. -/
def recordPath (s : ErrorStore) (stamp : Json) (operation id : String) : Except Fault Path := do
  let moment ← Moment.ofStamp stamp
  return s.directory.child (moment.compact ++ "_" ++ operation ++ "_" ++ id ++ ".json")

/-- A number plus one. -/
def addOne (document : Json) : Except Fault Json :=
  match document.whole?, document with
  | some n, _ => .ok (.int (n + 1))
  | none, .real x => .ok (.real (x.addInt 1))
  | none, other => .error other.value.sumFault

/-- The table of counts under a key of the statistics, with one more for an item.  What is not a
table counts as empty. -/
def countIn (stats : List (String × Json)) (table item : String) :
    Except Fault (List (String × Json)) := do
  let counts := membersOf ((stats.lookup table).getD .null)
  let count ← addOne ((counts.lookup item).getD (.int 0))
  return Json.setMember table (.obj (Json.setMember item count counts)) stats

/-- The statistics with the total increased.  What is not a whole number counts as zero. -/
def countTotal (stats : List (String × Json)) : List (String × Json) :=
  let total := (((stats.lookup "total_errors").getD (.int 0)).whole?).getD 0
  Json.setMember "total_errors" (.int (total + 1)) stats

/-- Records a failure in the statistics. -/
def updateStats (s : ErrorStore) (stamp : Json) (operation errorType resultKind : String) :
    Run Unit := do
  let stats := countTotal (← s.stats)
  let stats ← Run.ofExcept (countIn stats "by_operation" operation)
  let stats ← Run.ofExcept (countIn stats "by_type" errorType)
  let stats ← Run.ofExcept (countIn stats "by_result_kind" resultKind)
  let stats := Json.setMember "last_error_timestamp" stamp stats
  let now ← readClock
  save s.statsPath (.obj (Json.setMember "last_updated" now stats))

/-- The files of the record with an id. -/
def filesOf (s : ErrorStore) (disk : Disk) (id : String) : Except Fault (List Path) :=
  Files.Glob.paths disk s.directory ("*_" ++ id ++ ".json")

/-- Deletes the files of entries. -/
def deleteRecords (s : ErrorStore) : List ManifestEntry → Run Unit
  | [] => return ()
  | entry :: rest => do
    let paths ← Run.query fun host => s.filesOf host.disk entry.id.plainText
    let _ ← deleteAll paths
    s.deleteRecords rest

/-- Removes the oldest records beyond the number that the store keeps. -/
def prune (s : ErrorStore) : Run Unit := do
  let entries ← s.manifest
  if (entries.length : Int) ≤ s.maxErrors then return
  let oldest := ManifestEntry.oldestFirst entries
  let excess := ((entries.length : Int) - s.maxErrors).toNat
  s.deleteRecords (oldest.take excess)
  s.saveManifest (ManifestEntry.newestFirst (oldest.drop excess))

/-- The log record about a recorded failure. -/
def recordedMessage (id : String) (report : Report) (fault : Fault) : String :=
  let backend := report.backend.filter (· != "")
  "[" ++ id ++ "] " ++ backend.getD "disassembler" ++ " " ++ report.operation ++ " failed: " ++
    fault.name ++ ": " ++ fault.message

/-- Records a failure. -/
def record (s : ErrorStore) (fault : Fault) (report : Report) : Run ErrorRecord := do
  let r ← makeRecord fault report
  let id := r.errorId.plainText
  let path ← Run.ofExcept (s.recordPath r.timestamp report.operation id)
  save path (.obj r.members)
  let entries ← s.manifest
  s.saveManifest
    (ManifestEntry.newestFirst (entries ++ [ManifestEntry.ofRecord r fault.message]))
  s.updateStats r.timestamp report.operation fault.name report.resultKind
  s.prune
  Run.note .error (recordedMessage id report fault)
  return r

/-! ## 4. Reading back -/

/-- The first of the files that holds a record; files that do not are reported. -/
def firstRecord : List Path → Run (Option ErrorRecord)
  | [] => return none
  | path :: rest => do
    match ErrorRecord.ofMembers? (membersOf (← fetch path .table)) with
    | some r => return some r
    | none => do
      Run.note .warning ("Malformed error record " ++ path.name ++ ": wrong fields")
      firstRecord rest

/-- The record with an id. -/
def get? (s : ErrorStore) (id : String) : Run (Option ErrorRecord) := do
  firstRecord (← Run.query fun host => s.filesOf host.disk id)

/-- The first items of a list; a negative count leaves out that many at the end. -/
def takeSigned {α : Type} (count : Int) (items : List α) : List α :=
  if 0 ≤ count then items.take count.toNat else items.take (items.length - count.natAbs)

/-- The newest entries of the manifest. -/
def recent (s : ErrorStore) (count : Int := 20) : Run (List ManifestEntry) := do
  return takeSigned count (← s.manifest)

/-- Removes all records and starts the statistics afresh: the number of records removed. -/
def clear (s : ErrorStore) : Run Nat := do
  let paths ← Run.query fun host => Files.Glob.paths host.disk s.directory "*.json"
  let records := paths.filter fun path => path.name != manifestName && path.name != statsName
  let count ← deleteAll records
  s.saveManifest []
  save s.statsPath (.obj [])
  return count

/-! ## 5. Summary -/

/-- The number of characters of a message that the summary shows. -/
def summaryMessageLimit : Nat := 100

/-- The text of a field; nothing for a field that is missing. -/
def fieldText (e : ManifestEntry) (key : String) : String :=
  ((e.lookup key).getD .null).plainText

/-- The lines about an entry. -/
def entryLines (e : ManifestEntry) : Except Fault (List String) := do
  let moment ← Moment.ofStamp e.stamp
  let className := (e.lookup "class_name").getD .null
  let message := ((e.lookup "error_message").getD (.str "")).plainText
  return ["[" ++ e.id.plainText ++ "] " ++ moment.text] ++
    (if className.value.truthy then ["  Class: " ++ className.plainText] else []) ++
    ["  Result: " ++ fieldText e "result_kind", "  Type: " ++ fieldText e "error_type",
      "  Message: " ++ Text.take message summaryMessageLimit, ""]

/-- The lines about the statistics by class of failure. -/
def typeLines (stats : List (String × Json)) : List String :=
  match membersOf ((stats.lookup "by_type").getD .null) with
  | [] => []
  | counts =>
    "Errors by type:" :: counts.map fun (name, n) => "  " ++ name ++ ": " ++ n.plainText

/-- The summary of some entries and statistics. -/
def summaryText (entries : List ManifestEntry) (stats : List (String × Json)) :
    Except Fault String := do
  let lines ← entries.mapM entryLines
  let total := ((stats.lookup "total_errors").getD (.int 0)).plainText
  return Text.join "\n" <|
    ["=== DISASSEMBLY ERROR SUMMARY ===", "Total errors: " ++ total, "",
      "Recent " ++ toString entries.length ++ " errors:", String.ofList (List.replicate 40 '-')] ++
      lines.flatten ++ typeLines stats

/-- A summary of the newest records. -/
def summary (s : ErrorStore) (count : Int := 10) : Run String := do
  let entries ← s.recent count
  if entries.isEmpty then return "No disassembly errors recorded."
  let stats ← s.stats
  Run.ofExcept (summaryText entries stats)

end ErrorStore

end Dissect
