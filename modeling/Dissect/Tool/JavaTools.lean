/-
# Java tools

Finding javap in a Java installation.  A directory is searched in two places and nowhere else; a jar
is run by the host's Java with the jar as its only class path.  A child gets the host's environment
without the variables that change how Java loads classes.
-/
import Dissect.Tool.Command
import Dissect.Text.Case

namespace Dissect

open Files (Disk)

/-- A Java installation: its path, and the operating system whose file names apply. -/
structure JavaTools where
  root : Path
  system : String := "Linux"
deriving DecidableEq, Repr

namespace JavaTools

/-! ## 1. The command -/

/-- The class in a tools jar that javap starts at. -/
def mainClass : String := "com.sun.tools.javap.Main"

/-- The file name of an executable. -/
def executable (tools : JavaTools) (name : String) : String :=
  if tools.system = "Windows" then name ++ ".exe" else name

/-- A failure to resolve the tool. -/
def loadFault (tools : JavaTools) (message : String) : Fault :=
  { kind := .toolLoadError, args := [.str message, .str tools.root.text] }

/-- A denial of access to the tool. -/
def accessFault (tools : JavaTools) (message : String) : Fault :=
  { kind := .toolAccessError, args := [.str message, .str tools.root.text] }

/-- The raw path is an executable file. -/
def isProgram (disk : Disk) (path : String) : Bool :=
  match disk.stat path with
  | .ok node => !node.isDirectory && disk.canExecute path
  | .error _ => false

/-- The first program of a name along a search path.  An unset path has a default, an empty one
holds nothing. -/
def findOnPath (host : Host) (name : String) : Option String :=
  let searched := (host.environmentValue "PATH").getD "/bin:/usr/bin"
  if searched = "" then none
  else
    ((Text.splitAt searched ':').map (Command.inDirectory · name)).find? (isProgram host.disk)

/-- The host's Java: the one of `JAVA_HOME` first, then the one on the search path. -/
def findJava (tools : JavaTools) (host : Host) : Except Fault (Option String) := do
  match host.environmentValue "JAVA_HOME" with
  | some home =>
    if home = "" then return findOnPath host "java"
    else
      let candidate := ((Path.ofText home).child "bin").child (tools.executable "java")
      if (← host.disk.isFile candidate) then return some candidate.text
      else return findOnPath host "java"
  | none => return findOnPath host "java"

/-- The command for a jar. -/
def jarCommand (tools : JavaTools) (host : Host) : Except Fault (List String) := do
  let root := tools.root
  if Text.lower root.suffix != ".jar" then
    throw (tools.loadFault
      ("Java tools path is neither a directory nor a jar: " ++ root.text))
  if !host.disk.canRead root.text then
    throw (tools.accessFault ("Cannot read " ++ root.text))
  match ← tools.findJava host with
  | none =>
    throw (tools.loadFault
      "No Java runtime found to run tools.jar. Set JAVA_HOME or add java to PATH.")
  | some java => return [java, "-cp", root.text, mainClass]

/-- The command of the first of the candidates that is a file. -/
def firstCommand (tools : JavaTools) (disk : Disk) : List Path → Except Fault (List String)
  | [] => .error (tools.loadFault ("javap not found under " ++ tools.root.text))
  | candidate :: rest => do
    if (← disk.isFile candidate) then
      if disk.canExecute candidate.text then return [candidate.text]
      else throw (tools.accessFault ("javap is not executable: " ++ candidate.text))
    else firstCommand tools disk rest

/-- The two places of javap in an installation. -/
def javapPlaces (tools : JavaTools) : List Path :=
  let javap := tools.executable "javap"
  [(tools.root.child "bin").child javap, tools.root.child javap]

/-- The command that starts javap, without its arguments. -/
def command (tools : JavaTools) (host : Host) : Except Fault (List String) := do
  let root := tools.root
  if !(← host.disk.exists? root) then
    throw (tools.loadFault ("Java tools path does not exist: " ++ root.text))
  if (← host.disk.isFile root) then tools.jarCommand host
  else if !(host.disk.canRead root.text && host.disk.canExecute root.text) then
    throw (tools.accessFault ("Cannot access " ++ root.text))
  else tools.firstCommand host.disk tools.javapPlaces

/-! ## 2. The environment -/

/-- The variables that a child does not inherit. -/
def leakyVariables : List String :=
  ["CLASSPATH", "JAVA_TOOL_OPTIONS", "_JAVA_OPTIONS", "JDK_JAVA_OPTIONS"]

/-- The child's environment.  For an installation directory its programs come first on the search
path. -/
def environment (tools : JavaTools) (host : Host) : Except Fault Command.Environment := do
  let inherited := host.environment.filter fun (name, _) => !leakyVariables.contains name
  if (← host.disk.isDirectory tools.root) then
    let bin := tools.root.child "bin"
    let first := if (← host.disk.isDirectory bin) then bin else tools.root
    let hostPath := (inherited.lookup "PATH").getD ""
    let parts := [first.text, hostPath].filter (· != "")
    return Assoc.set "PATH" (Text.join ":" parts) inherited
  else return inherited

/-! ## 3. Use -/

/-- What is known of how an installation resolves. -/
structure Description where
  root : Path
  command : Except String (List String)

/-- The description as a document. -/
def Description.document (d : Description) : Json :=
  let members (command : Json) (resolved : Bool) : List (String × Json) :=
    [("tool_root", .str d.root.text), ("command", command), ("resolved", .bool resolved)]
  match d.command with
  | .ok command => .obj (members (.arr (command.map .str)) true)
  | .error message => .obj (members .null false ++ [("error", .str message)])

/-- How the installation resolves; only a failure of the tool itself is part of the answer. -/
def describe (tools : JavaTools) (host : Host) : Except Fault Description :=
  match tools.command host with
  | .ok command => .ok ⟨tools.root, .ok command⟩
  | .error fault =>
    if fault.isA .toolLoadError then .ok ⟨tools.root, .error fault.message⟩ else .error fault

/-- Opens the tool and uses it: the use is given what calls the entry point. -/
def withEntry {α : Type} (tools : JavaTools) (use : (List String → Run Unit) → Run α) :
    Run α := do
  let command ← Run.query tools.command
  let environment ← Run.query tools.environment
  use (Command.call command environment)

/-- The texts of a finished process, read strictly. -/
def strictTexts (result : ProcessResult) : Except Fault (String × String) := do
  let decode (data : Text.Bytes) : Except Fault String :=
    match Text.decode? data with
    | .ok s => .ok (String.ofList (Text.unifyNewlines s.toList))
    | .error e =>
      .error { kind := .unicodeDecodeError,
               args := [.str "utf-8", .bytes data, .int e.position,
                 .int (e.position + e.width), .str e.why.reason] }
  return (← decode result.stdout, ← decode result.stderr)

/-- What a version probe says: the first of the two streams that is not blank. -/
def versionOf (out err : String) : Option String :=
  let first := Text.strip out
  let second := Text.strip err
  if first != "" then some first else if second != "" then some second else none

/-- Asks javap for its version.  A javap that cannot be resolved has none; one that cannot be
started is reported. -/
def version (tools : JavaTools) : Run (Option String) := do
  match tools.command (← get) with
  | .error fault => if fault.isA .toolLoadError then return none else throw fault
  | .ok command => do
    let host ← get
    let result : Except Fault ProcessResult := do
      Command.run host.disk (← tools.environment host) (command ++ ["-version"])
    match result with
    | .ok result => do
      let (out, err) ← Run.ofExcept (strictTexts result)
      return versionOf out err
    | .error fault =>
      if fault.isA .osError then
        Run.note .error ("Failed to get javap version: " ++ fault.message)
        return none
      else throw fault

end JavaTools

end Dissect
