/-
# The host

Everything outside a value that the library can see or change, as plain data: the disk, the
environment, the streams, the safety gate, the loaded modules, the log.  The clock, the temporary
names and the record numbers are supplies that a step takes from.
-/
import Dissect.Console
import Dissect.Files.Layout
import Dissect.Files.Resolve
import Dissect.Json.Basic
import Dissect.Tool.Module

namespace Dissect

open Files (Disk)

/-- The levels of log records that are kept. -/
inductive Level where
  | info
  | warning
  | error
deriving DecidableEq, Repr

/-- The written form of a level. -/
def Level.text : Level → String
  | .info => "INFO"
  | .warning => "WARNING"
  | .error => "ERROR"

/-- A log record. -/
structure LogEntry where
  level : Level
  message : String
deriving DecidableEq, Repr

/-- A source of time stamps: one that advances by a second with each reading, or one whose readings
are given, the last of which stays. -/
inductive Clock where
  | steady (now : Int)
  | given (now : Json) (later : List Json)

/-- The reading of a clock, and the clock after it. -/
def Clock.read : Clock → Json × Clock
  | .steady now => (.int now, .steady (now + 1))
  | .given now [] => (now, .given now [])
  | .given now (next :: later) => (now, .given next later)

/-- The state of the world around the library. -/
structure Host where
  disk : Disk
  environment : List (String × String) := []
  /-- The home directory of the user, when the environment does not tell. -/
  ownHome : String := "/root"
  /-- The home directories of the known users. -/
  homes : List (String × String) := []
  /-- The directory for temporary files when none is configured. -/
  systemTemp : String := "/tmp"
  /-- The file of the running program, beside which the search for the settings file starts. -/
  programFile : Path := ⟨.root, ["program"]⟩
  /-- The values of the settings file, once it has been looked for. -/
  settings : Option (List (String × String)) := none
  console : Console := {}
  /-- The safety gate: whether audit records are silenced. -/
  gate : Bool := false
  /-- Whether a disassembly holds the invocation context. -/
  locked : Bool := false
  modules : ModuleTable := {}
  log : List LogEntry := []
  /-- The failure in which opening a new temporary file for writing ends, if it fails. -/
  openFault : Option Fault := none
  /-- How many temporary names have been taken. -/
  namesTaken : Nat := 0
  /-- How many error records have been numbered. -/
  recordsTaken : Nat := 0
  clock : Clock := .steady 1700000000

/-- A step: from a host to a result or a failure, and the host after it. -/
abbrev Run := ExceptT Fault (StateM Host)

namespace Run

/-- The result of a step and the host after it. -/
def exec {α : Type} (step : Run α) (host : Host) : Except Fault α × Host := step host

/-- A step that looks at the host. -/
def look {α : Type} (f : Host → α) : Run α := do return f (← get)

/-- A step that reads something that may fail off the host. -/
def query {α : Type} (f : Host → Except Fault α) : Run α := do
  match f (← get) with
  | .ok a => return a
  | .error fault => throw fault

/-- A step that may fail without having looked at the host. -/
def ofExcept {α : Type} : Except Fault α → Run α
  | .ok a => return a
  | .error fault => throw fault

/-- A step that may change the disk. -/
def changeDisk (f : Disk → Except Fault Disk) : Run Unit := do
  let host ← get
  match f host.disk with
  | .ok disk => set { host with disk }
  | .error fault => throw fault

/-- The result or the failure of a step, as a value. -/
def attempt {α : Type} (step : Run α) : Run (Except Fault α) := fun host =>
  let (result, host) := step host
  (.ok result, host)

/-- A step after which the host is put in order, whichever way the step ends. -/
def ensuring {α : Type} (step : Run α) (tidy : Host → Host) : Run α := fun host =>
  let (result, host) := step host
  (result, tidy host)

/-- A step after which another one is carried out, whichever way the first ends.  Where the second
fails, its failure counts, and arose while the first one's was handled. -/
def followedBy {α : Type} (step : Run α) (last : Run Unit) : Run α := fun host =>
  let (result, host) := step host
  match last host, result with
  | (.ok (), host), result => (result, host)
  | (.error fault, host), .ok _ => (.error fault, host)
  | (.error fault, host), .error earlier => (.error (fault.during earlier), host)

/-- Writes a log record. -/
def note (level : Level) (message : String) : Run Unit :=
  modify fun host => { host with log := host.log ++ [⟨level, message⟩] }

end Run

/-- The host with one more log record. -/
def Host.noted (host : Host) (level : Level) (message : String) : Host :=
  { host with log := host.log ++ [⟨level, message⟩] }

namespace Host

/-- The value of an environment variable. -/
def environmentValue (host : Host) (name : String) : Option String := host.environment.lookup name

/-- The failure of setting a variable that the environment cannot hold. -/
def variableFault? (name value : String) : Option Fault :=
  ((Disk.encodingFault? name).or (Disk.encodingFault? value)).or <|
    if Disk.hasNul name || Disk.hasNul value then some Disk.nulFault
    else if name.toList.contains '=' then
      some (.ofText .valueError "illegal environment variable name")
    else if name = "" then
      some { kind := .osError, args := [.int 22, .str "Invalid argument"] }
    else none

/-- Sets an environment variable. -/
def setVariable (name value : String) : Run Unit := do
  match variableFault? name value with
  | some fault => throw fault
  | none => modify fun host => { host with environment := Assoc.set name value host.environment }

/-- Takes a variable out of the environment. -/
def eraseVariable (name : String) : Run Unit := do
  match Disk.encodingFault? name with
  | some fault => throw fault
  | none => modify fun host => { host with environment := Assoc.erase name host.environment }

end Host

end Dissect
