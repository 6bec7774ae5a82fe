/-
# Loading modules

How the runtime of a tool finds and loads a module.  A name is looked up among the loaded modules
first, then among those that are part of the runtime itself, then in the directories of a search
path: a directory with an initial file is a package, a file with code is a module, and any other
directory is a package without a file, which gives way to whatever a later entry of the search path
offers.  Loading a module runs its code; a module whose code fails is not loaded.

A runtime may keep the compiled form of what it loads, in directories for that beside the files
(`compiledDirectory`), and read it again as long as the file has not changed.  None is kept here and
none is read: loading changes no file.
-/
import Dissect.Tool.CodeFile
import Dissect.Tool.Command

namespace Dissect

open Files (Disk Errno)
open Text (Bytes)

namespace Import

/-- The name of a directory in which a runtime may keep compiled code. -/
def compiledDirectory : String := "__pycache__"

/-! ## 1. Finding a module -/

/-- What is found under a name: a file with its code, in a directory of its own if it is a package;
or directories without a file, which together are a package. -/
inductive Found where
  | code (form : CodeForm) (path : String) (packagePath : Option (List String))
  | bare (directories : List String)
deriving DecidableEq, Repr

/-- What is found is code. -/
def Found.isCode : Found → Bool
  | .code .. => true
  | .bare _ => false

/-- The directories that something found adds to a package without a file. -/
def Found.directories : Found → List String
  | .code .. => []
  | .bare directories => directories

/-- The raw path is a regular file. -/
def isFileAt (disk : Disk) (path : String) : Bool :=
  match disk.stat path with
  | .ok node => node.isFile
  | .error _ => false

/-- The raw path is a directory. -/
def isDirectoryAt (disk : Disk) (path : String) : Bool :=
  match disk.stat path with
  | .ok node => node.isDirectory
  | .error _ => false

/-- The first code file whose path is the given one and a suffix, with its form; a name may have to
be listed in the directory. -/
def codeFile? (disk : Disk) (listed : String → Bool) (start : String) :
    Option (CodeForm × String) :=
  CodeForm.suffixes.findSome? fun (suffix, form) =>
    if listed suffix && isFileAt disk (start ++ suffix) then some (form, start ++ suffix) else none

/-- What one directory offers under the last component of a name, which has to be in its
listing. -/
def findIn (disk : Disk) (directory component : String) : Option Found :=
  let names := (disk.names directory).toOption.getD []
  let base := Command.inDirectory directory component
  let package := (codeFile? disk (fun _ => true) (Command.inDirectory base "__init__")).map
    fun (form, path) => Found.code form path (some [base])
  let plain := (codeFile? disk (fun suffix => names.contains (component ++ suffix)) base).map
    fun (form, path) => Found.code form path none
  let bare := if isDirectoryAt disk base then some (Found.bare [base]) else none
  if names.contains component then package.or (plain.or bare) else plain

/-- The directory that an entry of a search path stands for.  No text and a dot stand for the
working directory, and from there the entries start that do not start at the root. -/
def directoryOf (disk : Disk) (entry : String) : String :=
  if Text.startsWith entry "/" then entry
  else
    let working := Path.text ⟨.root, disk.cwd⟩
    if entry = "" || entry = "." then working
    else
      Command.inDirectory working
        (if Text.startsWith entry "./" then String.ofList (entry.toList.drop 2) else entry)

/-- What the directories of a search path offer.  Code found anywhere wins over bare directories,
which together make one package. -/
def find (disk : Disk) (component : String) (searchPath : List String) : Option Found :=
  let offers := searchPath.filterMap fun entry => findIn disk (directoryOf disk entry) component
  match offers.find? Found.isCode with
  | some offer => some offer
  | none => if offers.isEmpty then none else some (.bare (offers.flatMap Found.directories))

/-- The last component of a module's name. -/
def lastComponent (name : String) : String := (Text.splitAt name '.').getLast?.getD ""

/-- The name of the package that a module belongs to, or nothing. -/
def parentName (name : String) : String := Text.join "." (Text.splitAt name '.').dropLast

/-! ## 2. Actions -/

/-- Writes to the current output stream. -/
def print (s : String) : Run Unit := do
  let host ← get
  match host.console.writeOut s with
  | .ok console => set { host with console }
  | .error fault => throw fault

/-- Writes to the current error stream. -/
def complain (s : String) : Run Unit := do
  let host ← get
  match host.console.writeErr s with
  | .ok console => set { host with console }
  | .error fault => throw fault

/-- The last argument, by which code is told which file to read. -/
def lastArgument (arguments : List String) : Except Fault String :=
  match arguments.getLast? with
  | some path => .ok path
  | none => .error (.ofText .indexError "list index out of range")

/-- The bytes of the file that the last argument names. -/
def readLast (arguments : List String) : Run Bytes := do
  let path ← Run.ofExcept (lastArgument arguments)
  Run.query fun host => Errno.name path (host.disk.read path)

/-- Removes the file that the last argument names. -/
def unlinkLast (arguments : List String) : Run Unit := do
  let path ← Run.ofExcept (lastArgument arguments)
  Run.changeDisk fun disk => Errno.name path (disk.unlink path)

/-- The failure of bytes beyond ASCII. -/
def asciiFault (data : Bytes) (position : Nat) : Fault :=
  { kind := .unicodeDecodeError,
    args := [.str "ascii", .bytes data, .int position, .int (position + 1),
      .str "ordinal not in range(128)"] }

/-- The text of ASCII bytes. -/
def asciiText (data : Bytes) : Except Fault String :=
  match data.findIdx? (fun b => 0x80 ≤ b.toNat) with
  | some position => .error (asciiFault data position)
  | none => .ok (String.ofList (data.map fun b => Char.ofNat b.toNat))

/-- The first bytes of a class file. -/
def classMagic : Bytes := [0xca, 0xfe, 0xba, 0xbe]

/-- How code loads another module. -/
abbrev Loader := String → Run Unit

/-- What a finished action leaves: a value given back, or nothing yet. -/
abbrev Given := Option Value

/-- The demand for a name given in full. -/
def demandFullName (name : String) : Except Fault Unit :=
  if name = "" then .error (.ofText .valueError "Empty module name")
  else if Text.startsWith name "." then
    .error (.ofText .typeError
      ("the 'package' argument is required to perform a relative import for " ++ Text.quote name))
  else .ok ()

/-- Carries out one action for the module of the given name. -/
def act (load : Loader) (owner : String) (arguments : List String) : Action → Run Given
  | .out s => do print s; return none
  | .err s => do complain s; return none
  | .arguments => do print (Text.join " " arguments ++ "\n"); return none
  | .hex => do print (Text.hex (← readLast arguments) ++ "\n"); return none
  | .magic => do
    if classMagic.isPrefixOf (← readLast arguments) then return none
    else throw (.ofText .valueError "Invalid class file magic")
  | .className => do
    let data ← readLast arguments
    let name ← Run.ofExcept (asciiText (data.drop 4))
    print ("public class " ++ name ++ "\n")
    return none
  | .count => do
    let host ← get
    let (modules, n) := host.modules.tally owner
    set { host with modules }
    print ("call " ++ toString n ++ "\n")
    return none
  | .exit code => throw { kind := .systemExit, args := [code] }
  | .raise fault => throw fault.afterRaise
  | .load name => do
    Run.ofExcept (demandFullName name)
    load name
    print ("imported " ++ name ++ "\n")
    return none
  | .loaded name => do
    let known := (← get).modules.contains name
    print ("loaded " ++ name ++ " " ++ (Value.bool known).text ++ "\n")
    return none
  | .searchHead => do
    match (← get).modules.searchPath with
    | head :: _ => print ("path0 " ++ head ++ "\n")
    | [] => throw (.ofText .indexError "list index out of range")
    return none
  | .unlink => do unlinkLast arguments; return none
  | .toDirectory => do
    unlinkLast arguments
    let path ← Run.ofExcept (lastArgument arguments)
    Run.changeDisk fun disk => Errno.name path (disk.makeDirectory path)
    return none
  | .giveBack value => return some value

/-- Carries out actions until one gives back a value; code that ends without doing so gives back
nothing. -/
def actAll (load : Loader) (owner : String) (arguments : List String) : List Action → Run Value
  | [] => return .none
  | action :: rest => do
    match ← act load owner arguments action with
    | some value => return value
    | none => actAll load owner arguments rest

/-! ## 3. Loading a module -/

/-- The failure to find a module, and what stands in the way. -/
def notFound (name detail : String) : Fault :=
  .ofText .moduleNotFoundError ("No module named " ++ Text.quote name ++ detail)

/-- The content of the regular file at a raw path. -/
def contentAt (disk : Disk) (path : String) : Except Fault Files.Content := do
  match ← Errno.name path (disk.stat path) with
  | .file content _ => .ok content
  | _ => .ok (.bytes [])

/-- The script of a module in a file with code of a form. -/
def scriptAt (disk : Disk) (name : String) (form : CodeForm) (path : String) :
    Except Fault Script := do
  let content ← contentAt disk path
  match form with
  | .source => CodeForm.script content
  | .native => .error (CodeForm.nativeFault path content)
  | .compiled => .error (CodeForm.compiledFault name path content.data)

/-- Changes the table of modules. -/
def changeModules (f : ModuleTable → ModuleTable) : Run Unit :=
  modify fun host => { host with modules := f host.modules }

/-- Loads what was found under a name. -/
def enter (load : Loader) (name : String) : Found → Run Unit
  | .bare directories =>
    changeModules (·.add name { serial := 0, packagePath := some directories })
  | .code form path packagePath => do
    let script ← Run.query fun host => scriptAt host.disk name form path
    changeModules
      (·.add name { serial := 0, origin := some path, packagePath, members := script.members })
    match ← Run.attempt (actAll load name [] script.onLoad) with
    | .ok _ => return ()
    | .error fault => do
      changeModules (·.erase name)
      throw fault

/-- Where the modules of a loaded package are found, its name being given from the last component
up.  A package without a file is looked for anew, and keeps what it had if it is not found again. -/
def packagePath? (disk : Disk) (table : ModuleTable) : List String → Option (List String)
  | [] => some table.searchPath
  | component :: above => do
    let m ← table.get? (Text.join "." (component :: above).reverse)
    let stored ← m.packagePath
    if m.origin.isSome then return stored
    match (packagePath? disk table above).bind (find disk component) with
    | some (.bare directories) => return directories
    | _ => return stored

/-- The search path for a name: the package's own for a module in a package. -/
def searchPathFor (disk : Disk) (table : ModuleTable) (name parent : String) :
    Except Fault (List String) :=
  if parent = "" then .ok table.searchPath
  else
    match packagePath? disk table (Text.splitAt parent '.').reverse with
    | some path => .ok path
    | none => .error (notFound name ("; " ++ Text.quote parent ++ " is not a package"))

/-- The failure of code that loads code beyond the given depth. -/
def tooDeep : Fault := .ofText .recursionError "maximum recursion depth exceeded"

/-- Loads a module unless it is loaded already, its package first.  Code may load code to a bounded
depth. -/
def load : Nat → String → Run Unit
  | 0, _ => throw tooDeep
  | depth + 1, name => do
    if (← get).modules.contains name then return
    let parent := parentName name
    if parent != "" then
      load depth parent
      if (← get).modules.contains name then return
    let host ← get
    let searchPath ← Run.ofExcept (searchPathFor host.disk host.modules name parent)
    match host.modules.resident.lookup name with
    | some own =>
      changeModules (·.add name { serial := 0, origin := own.origin, members := own.members })
    | none =>
      match find host.disk (lastComponent name) searchPath with
      | none => throw (notFound name "")
      | some found => enter (load depth) name found

/-- How deep code may load code. -/
def maxDepth : Nat := 200

/-- Loads a module by its name, which has to be given in full. -/
def loadModule (name : String) : Run Unit := do
  Run.ofExcept (demandFullName name)
  load maxDepth name

/-- Calls a routine of a module. -/
def callRoutine (owner : String) (actions : List Action) (arguments : List String) : Run Value :=
  actAll loadModule owner arguments actions

end Import

end Dissect
