/-
# Tools made of modules

A tool that is a directory of modules is entered through a routine of one of them.  While the tool
is open its directory heads the search path; modules of the host with the tool's name are put aside
and come back afterwards, and everything loaded from the tool is unloaded again.
-/
import Dissect.Tool.EntryPoint
import Dissect.Tool.Import

namespace Dissect

open Files (Disk)

/-- A directory of modules and the entry point in it, with the text that named it. -/
structure ModuleTools where
  root : Path
  entry : EntryPoint
  entryText : String
deriving DecidableEq, Repr

namespace ModuleTools

/-- The tool of a directory and an entry point's text. -/
def ofText (root : Path) (entryText : String) : Except Fault ModuleTools := do
  return { root, entry := ← EntryPoint.parse entryText, entryText }

/-- The name of the tool's outermost module. -/
def topLevel (tools : ModuleTools) : String := tools.entry.topLevel

/-- A failure to resolve the tool under a root. -/
def loadFault (root : Path) (message : String) : Fault :=
  { kind := .toolLoadError, args := [.str message, .str root.text] }

/-- A denial of access to the tool under a root. -/
def accessFault (root : Path) (message : String) : Fault :=
  { kind := .toolAccessError, args := [.str message, .str root.text] }

/-- The module belongs to the tool by its name. -/
def owns (tools : ModuleTools) (name : String) : Bool :=
  name == tools.topLevel || Text.startsWith name (tools.topLevel ++ ".")

/-! ## 1. The root -/

/-- The link-free form of the root, which has to be an accessible directory. -/
def checkedRoot (tools : ModuleTools) (disk : Disk) : Except Fault Path := do
  let root := tools.root
  if !(← disk.exists? root) then
    throw (loadFault root ("Tool path does not exist: " ++ root.text))
  if !(← disk.isDirectory root) then
    throw (loadFault root ("Tool path is not a directory: " ++ root.text))
  if !(disk.canRead root.text && disk.canExecute root.text) then
    throw (accessFault root ("Cannot access " ++ root.text))
  disk.resolve root

/-- Something is found under the tool's name in the root. -/
def isFound (tools : ModuleTools) (disk : Disk) (root : Path) : Bool :=
  (Import.find disk (Import.lastComponent tools.topLevel) [root.text]).isSome

/-! ## 2. The entry point -/

/-- The failure to load the tool's module, told as a failure of the tool.  Loading is done by the
generator that keeps the tool's scope. -/
def importFault (tools : ModuleTools) (root : Path) (fault : Fault) : Fault :=
  if fault.isA .permissionError then
    fault.retold fun message =>
      accessFault root ("Cannot read module '" ++ tools.entry.module ++ "': " ++ message)
  else if fault.isA .importError then
    fault.retold fun message =>
      loadFault root ("Cannot import '" ++ tools.entry.module ++ "': " ++ message)
  else fault.outOfGenerator

/-- The file lies under the root once links are replaced. -/
def liesUnder (disk : Disk) (root : Path) (file : String) : Except Fault Bool := do
  return (← disk.resolve (Path.ofText file)).isWithin root

/-- The actions of the entry point in the loaded module.  The module's file has to lie under the
root. -/
def routine (tools : ModuleTools) (root : Path) (host : Host) : Except Fault (List Action) := do
  let loaded := host.modules.get? tools.entry.module
  match loaded.bind (·.origin) with
  | some origin =>
    if !(← liesUnder host.disk root origin) then
      throw (loadFault root
        ("Module '" ++ tools.entry.module ++ "' resolved outside the tool root: " ++ origin))
  | none => pure ()
  match loaded.bind fun m => m.member? tools.entry.routine with
  | some (.routine actions) => return actions
  | _ => throw (loadFault root ("Entry point '" ++ tools.entryText ++ "' is not callable"))

/-- Loads the tool's module and finds the entry point in it. -/
def enter (tools : ModuleTools) (root : Path) : Run (List Action) := do
  if !tools.isFound (← get).disk root then
    throw (loadFault root ("Module '" ++ tools.topLevel ++ "' not found under " ++ root.text))
  match ← Run.attempt (Import.loadModule tools.entry.module) with
  | .ok () => Run.query (tools.routine root)
  | .error fault => throw (tools.importFault root fault)

/-! ## 3. The scope -/

/-- The table while the tool is open: its own names are free, and the root heads the search path. -/
def opened (tools : ModuleTools) (root : Path) (table : ModuleTable) : ModuleTable :=
  { table with
    loaded := table.loaded.filter fun (name, _) => !tools.owns name
    searchPath := root.text :: table.searchPath }

/-- A module was loaded from under the root.  A file whose path the system refuses, or that no path
can be, is not under it; a path that leads into a loop is a failure. -/
def loadedFrom (disk : Disk) (root : Path) (m : Module) : Except Fault Bool :=
  match m.origin with
  | none => .ok false
  | some origin =>
    match liesUnder disk root origin with
    | .ok inside => .ok inside
    | .error fault =>
      if fault.isA .osError || fault.isA .valueError then .ok false else .error fault

/-- A module goes when the tool is closed: one of the tool's own names, or a new name whose file
lies under the root. -/
def unloads (tools : ModuleTools) (disk : Disk) (root : Path) (before : ModuleTable)
    (name : String) (m : Module) : Except Fault Bool :=
  if tools.owns name then .ok true
  else if before.contains name then .ok false
  else loadedFrom disk root m

/-- What is left of loaded modules when those that go are taken out one after the other, and the
failure that stopped this, if one did. -/
def sweep (tools : ModuleTools) (disk : Disk) (root : Path) (before : ModuleTable) :
    List (String × Module) → List (String × Module) × Option Fault
  | [] => ([], none)
  | (name, m) :: rest =>
    match tools.unloads disk root before name m with
    | .error fault => ((name, m) :: rest, some fault)
    | .ok true => sweep tools disk root before rest
    | .ok false =>
      let (kept, stop) := sweep tools disk root before rest
      ((name, m) :: kept, stop)

/-- The modules of the host that were put aside come back. -/
def restored (tools : ModuleTools) (before : ModuleTable) (kept : List (String × Module)) :
    List (String × Module) :=
  (before.loaded.filter fun (name, _) => tools.owns name).foldl
    (fun loaded (name, m) => Assoc.set name m loaded) kept

/-- Closes the tool, given the table before it was opened.  If the modules that go cannot all be
taken out, those put aside do not come back. -/
def close (tools : ModuleTools) (root : Path) (before : ModuleTable) : Run Unit := do
  let host ← get
  let (kept, stop) := tools.sweep host.disk root before host.modules.loaded
  let loaded := if stop.isSome then kept else tools.restored before kept
  set { host with modules := { host.modules with loaded, searchPath := before.searchPath } }
  match stop with
  | some fault => throw fault
  | none => return ()

/-- What is done while the tool is open: the entry point is looked up and given to its use. -/
def within {α : Type} (tools : ModuleTools) (root : Path)
    (use : (List String → Run Value) → Run α) : Run α := do
  let actions ← tools.enter root
  use (Import.callRoutine tools.entry.module actions)

/-- Opens the tool and uses it: the use is given what calls the entry point.  Whichever way the use
ends, the tool is closed. -/
def withEntry {α : Type} (tools : ModuleTools)
    (use : (List String → Run Value) → Run α) : Run α := do
  let root ← Run.query fun host => tools.checkedRoot host.disk
  let before := (← get).modules
  Import.changeModules (tools.opened root)
  Run.followedBy (tools.within root use) (tools.close root before)

/-! ## 4. Description -/

/-- What is known of how a tool resolves: whether its name is found, unless the root already has a
fault. -/
structure Description where
  root : Path
  entryText : String
  found : Except String Bool

/-- The description as a document. -/
def Description.document (d : Description) : Json :=
  let members (found : Bool) : List (String × Json) :=
    [("tool_root", .str d.root.text), ("entry_point", .str d.entryText), ("resolved", .bool found)]
  match d.found with
  | .ok found => .obj (members found)
  | .error message => .obj (members false ++ [("error", .str message)])

/-- How the tool resolves; only a failure of the tool itself is part of the answer. -/
def describe (tools : ModuleTools) (disk : Disk) : Except Fault Description :=
  match tools.checkedRoot disk with
  | .ok root => .ok ⟨tools.root, tools.entryText, .ok (tools.isFound disk root)⟩
  | .error fault =>
    if fault.isA .toolLoadError then .ok ⟨tools.root, tools.entryText, .error fault.message⟩
    else .error fault

end ModuleTools

end Dissect
