/-
# Processes

Starting a program: finding it along the search path of the child's environment, running it, and
passing on what it wrote.  A child that does not end with status zero asks its caller to exit with
that status.
-/
import Dissect.Host
import Dissect.Text.Lines
import Dissect.Tool.CommandFile
import Dissect.Tool.Shell

namespace Dissect

open Files (Disk Errno)
open Text (Bytes)

namespace Command

/-- An environment for a child. -/
abbrev Environment := List (String × String)

/-! ## 1. Starting a program -/

/-- What a program finds when it copies the file of its last argument. -/
def lastFile (disk : Disk) (arguments : List String) : Except String Bytes :=
  let path := arguments.getLast?.getD ""
  match disk.read path with
  | .ok data => .ok data
  | .error e => .error ("cat: " ++ path ++ ": " ++ e.text)

/-- The greatest length of one argument, in bytes. -/
def maxArgumentBytes : Nat := 131071

/-- The search path of a shell that is given none. -/
def shellPath : String := "/usr/local/sbin:/usr/local/bin:/usr/sbin:/usr/bin:/sbin:/bin"

/-- The variables that a program sees.  It is run by the shell, which adds the search path and the
working directory if it is not given them. -/
def visibleVariables (disk : Disk) (environment : Environment) : Environment :=
  environment ++ [("PATH", shellPath), ("PWD", "/" ++ Text.join "/" disk.cwd)]

/-- Runs a program. -/
def runProgram (disk : Disk) (environment : Environment) (program : Program)
    (arguments : List String) : ProcessResult :=
  program.run arguments (visibleVariables disk environment) (lastFile disk arguments)

/-- The shell's words for an error in opening a file. -/
def openText (e : Errno) : String :=
  if e == .noEntry || e == .notDirectory then "No such file" else e.text

/-- Runs the shell under a name with arguments. -/
def runShell (disk : Disk) (environment : Environment) (name : String) (arguments : List String) :
    ProcessResult :=
  match Shell.Request.ofArguments name {} false arguments with
  | .refusal result => result
  | .text options name source => Shell.run options name (Text.encode source)
  | .file options path arguments =>
    match disk.stat path with
    | .ok (.file (.program program) _) => runProgram disk environment program arguments
    | .ok (.file content _) => Shell.run options path content.data
    | .ok _ => ⟨[], [], 0⟩
    | .error e => Shell.refuse name ("cannot open " ++ path ++ ": " ++ openText e)

/-- Starts the file at a path under a name.  An interpreter may itself be a command file, to a
bounded depth. -/
def start (disk : Disk) (environment : Environment) :
    Nat → String → String → List String → Except Errno ProcessResult
  | 0, _, _, _ => .error .tooManyLinks
  | depth + 1, path, name, arguments => do
    match ← disk.stat path with
    | .file content mode =>
      if !(Files.Node.file content mode).isExecutable then .error .accessDenied
      else
        match content with
        | .program program => .ok (runProgram disk environment program arguments)
        | .shell => .ok (runShell disk environment name arguments)
        | content =>
          match CommandFile.interpreter? content.data with
          | none => .error .execFormat
          | some ("", _) => .error .accessDenied
          | some (interpreter, argument) =>
            start disk environment depth interpreter interpreter
              (argument.toList ++ path :: arguments)
    | _ => .error .accessDenied

/-- The directories of a search path. -/
def searchDirectories (environment : Environment) : List String :=
  Text.splitAt ((environment.lookup "PATH").getD "/bin:/usr/bin") ':'

/-- A file name in a directory, as a raw path. -/
def inDirectory (directory name : String) : String :=
  if directory = "" || Text.endsWith directory "/" then directory ++ name
  else directory ++ "/" ++ name

/-- The paths at which a command is looked for.  Only a name without a slash is searched. -/
def candidates (environment : Environment) (command : String) : List String :=
  if command.toList.contains '/' then [command]
  else (searchDirectories environment).map (inDirectory · command)

/-- The errors that send the search on without being remembered. -/
def isMiss (e : Errno) : Bool := e == .noEntry || e == .notDirectory

/-- Starts the first of the paths that can be started.  The first error that is not a mere miss is
the one that counts, else the last. -/
def startFirst (disk : Disk) (environment : Environment) (name : String)
    (arguments : List String) (remembered : Option Errno) (last : Errno) :
    List String → Except Errno ProcessResult
  | [] => .error (remembered.getD last)
  | path :: rest =>
    match start disk environment 5 path name arguments with
    | .ok result => .ok result
    | .error e =>
      let remembered :=
        match remembered with
        | some e' => some e'
        | none => if isMiss e then none else some e
      startFirst disk environment name arguments remembered e rest

/-- The failure of an environment or a command that no process can be given. -/
def unusable? (environment : Environment) (command : List String) : Option Fault :=
  if environment.any fun (name, _) => name.toList.contains '=' then
    some (.ofText .valueError "illegal environment variable name")
  else
    (environment.flatMap (fun (name, value) => [name, value]) ++ command).findSome?
      Disk.pathFault?

/-- Runs a command to its end. -/
def run (disk : Disk) (environment : Environment) (command : List String) :
    Except Fault ProcessResult :=
  match command, unusable? environment command with
  | [], _ => .error (.ofText .indexError "list index out of range")
  | _, some fault => .error fault
  | name :: arguments, none =>
    if command.any fun argument => maxArgumentBytes < argument.utf8ByteSize then
      .error (Errno.argumentsTooLong.fault name)
    else
      Errno.name name
        (startFirst disk environment name arguments none .noEntry (candidates environment name))

/-! ## 2. Passing on what it wrote -/

/-- A stream of a child as text: malformed bytes replaced, and every line end a line feed. -/
def streamText (data : Bytes) : String :=
  String.ofList (Text.unifyNewlines (Text.decodeLossy data).toList)

/-- Writes a text to a stream of the console, unless there is nothing to write. -/
def forward (write : Console → String → Except Fault Console) (s : String) : Run Unit := do
  if s = "" then return
  let host ← get
  match write host.console s with
  | .ok console => set { host with console }
  | .error fault => throw fault

/-- Calls a command with arguments as an entry point: what it writes goes to the current streams,
and a status other than zero becomes a request to exit. -/
def call (command : List String) (environment : Environment) (arguments : List String) :
    Run Unit := do
  let result ← Run.query fun host => run host.disk environment (command ++ arguments)
  forward Console.writeOut (streamText result.stdout)
  forward Console.writeErr (streamText result.stderr)
  if result.status != 0 then throw { kind := .systemExit, args := [.int result.status] }

end Command

end Dissect
