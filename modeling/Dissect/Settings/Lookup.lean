/-
# Looking up settings

A setting is the environment's value if the variable is set, else the settings file's, else the
caller's default.  The file is the first `.env` in the program's directory, up to four directories
above it, and the working directory.  It is read once, when a setting is first not found in the
environment; its values then stay until they are read again on request.
-/
import Dissect.Settings.File
import Dissect.Text.Case

namespace Dissect.Settings

/-! ## 1. The file -/

/-- The directories in which the file is looked for besides the working directory: a directory and
those above it, five in all and none twice. -/
def searchedAbove (directory : Path) : List Path :=
  (Files.Disk.chain directory).take 5

/-- The first of the paths at which there is something. -/
def firstExisting (disk : Files.Disk) : List Path → Except Fault (Option Path)
  | [] => .ok none
  | path :: rest => do
    if (← disk.exists? path) then return some path else firstExisting disk rest

/-- The settings file, if there is one. -/
def findFile (host : Host) : Except Fault (Option Path) := do
  let program ← host.disk.resolve host.programFile
  let directories := searchedAbove program.parent ++ [⟨.root, host.disk.cwd⟩]
  firstExisting host.disk (directories.map fun directory => directory.child ".env")

/-- Reads the settings file, unless that has been done and is not asked for again. -/
def load (again : Bool) : Run Unit := do
  if (← get).settings.isSome && !again then return
  match ← Run.query findFile with
  | none => modify fun host => { host with settings := some [] }
  | some path => do
    let values ← valuesAt path.text
    modify fun host => { host with settings := some values }

/-! ## 2. Values -/

/-- The value of a key in the settings file as far as it has been read. -/
def fileValue? (host : Host) (key : String) : Option String :=
  (host.settings.getD []).lookup key

/-- The value of a setting. -/
def get? (key : String) : Run (Option String) := do
  match (← get).environmentValue key with
  | some value => return some value
  | none => do
    load false
    return fileValue? (← get) key

/-- The value of a setting, or the default. -/
def getD (key : String) (default : Option String) : Run (Option String) := do
  return (← get? key).or default

/-- The words that stand for yes. -/
def affirmatives : List String := ["true", "1", "yes", "on"]

/-- A setting that says yes or no. -/
def bool (key : String) (default : Bool) : Run Bool := do
  match ← get? key with
  | none => return default
  | some value => return affirmatives.contains (Text.lower (Text.strip value))

/-! ## 3. Paths -/

/-- The home directory that a first component such as `~` or `~name` stands for. -/
def homeOf (host : Host) (component : String) : Option String :=
  if component = "~" then some ((host.environmentValue "HOME").getD host.ownHome)
  else host.homes.lookup (String.ofList (component.toList.drop 1))

/-- The text without the slashes at its end; nothing is left of slashes alone. -/
def dropFinalSlashes (s : String) : String :=
  String.ofList (s.toList.reverse.dropWhile (· = '/')).reverse

/-- A path with its home directory written out. -/
def expandHome (host : Host) (path : Path) : Except Fault Path :=
  match path.anchor, path.parts with
  | .relative, first :: rest =>
    if Text.startsWith first "~" then
      if Files.Disk.hasNul first then .error Files.Disk.nulFault
      else match homeOf host first with
      | none => .error (.ofText .runtimeError "Could not determine home directory.")
      | some home =>
        let home := dropFinalSlashes home
        let home := if home = "" then "/" else home
        if Text.startsWith home "~" then
          .error (.ofText .runtimeError "Could not determine home directory.")
        else
          let base := Path.ofText home
          .ok ⟨base.anchor, base.parts ++ rest⟩
    else .ok path
  | _, _ => .ok path

/-- A setting that names a path; a blank one counts as not set. -/
def path (key : String) : Run (Option Path) := do
  match ← get? key with
  | none => return none
  | some value =>
    let value := Text.strip value
    if value = "" then return none
    else return some (← Run.query fun host => expandHome host (Path.ofText value))

/-! ## 4. Overview -/

/-- The settings and what each is for. -/
def keys : List (String × String) :=
  [("JAVA_TOOLS", "Path to a JDK installation (or its tools.jar) providing javap"),
   ("CLASSVIEW_DISASSEMBLER", "Disassembler backend: 'javap' (default) or 'module'"),
   ("CLASSVIEW_TOOL_ENTRY_POINT",
    "Entry point for the module backend (default: javap:main)"),
   ("CLASSVIEW_TEMP_DIR", "Directory for temporary class files (default: system temp)"),
   ("CLASSVIEW_ERROR_DIR", "Directory for persisted disassembly error records"),
   ("CLASSVIEW_AUDIT_EXEC", "Log process-spawn audit events outside disassembly calls"),
   ("CLASSVIEW_LOG_LEVEL", "Logging level (DEBUG, INFO, WARNING, ERROR)")]

/-- Parts of a key that mark its value as secret. -/
def secretMarks : List String := ["API_KEY", "SECRET", "PASSWORD", "TOKEN"]

/-- A value as it may be shown: a secret only by its two ends, and a short one not at all. -/
def mask (key value : String) : String :=
  if secretMarks.any (Text.contains (Text.upper key)) then
    if 12 < value.length then Text.take value 4 ++ "..." ++ Text.takeEnd value 4 else "***"
  else value

/-- Where a setting's value comes from. -/
inductive Source where
  | environment
  | file
deriving DecidableEq, Repr

/-- The written form of a source. -/
def Source.text : Source → String
  | .environment => "environment"
  | .file => ".env file"

/-- The state of a setting: its source and its value as it may be shown, if it is set. -/
structure Status where
  key : String
  found : Option (Source × String)
deriving DecidableEq, Repr

/-- The state of a setting, the file having been read. -/
def statusOf (host : Host) (key : String) : Status :=
  match host.environmentValue key, fileValue? host key with
  | some value, _ => ⟨key, some (.environment, mask key value)⟩
  | none, some value => ⟨key, some (.file, mask key value)⟩
  | none, none => ⟨key, none⟩

/-- The states of all settings. -/
def status : Run (List Status) := do
  load false
  let host ← get
  return keys.map fun (key, _) => statusOf host key

end Dissect.Settings
