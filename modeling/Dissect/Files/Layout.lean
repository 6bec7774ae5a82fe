/-
# Laying out a disk

Nodes put on a disk and taken off it from outside a program, as an installer or a person does it.
The directories above a path are made as needed.  A file is written over, through links, and gets
the mode of the new one; a directory may be there already; links and pipes need a vacant path.
-/
import Dissect.Files.Disk

namespace Dissect.Files.Disk

/-! ## 1. Directories -/

/-- Makes a directory and the missing ones above it, the path of each being given, nearest first.
What is missing is made from the top down. -/
def makeAll (d : Disk) : List Path → Except Fault Disk
  | [] => .ok d
  | path :: above => do
    let missing ← (above.head?.mapM fun parent => do return !(← d.exists? parent))
    let d ← if missing.getD false then
        match d.makeAll above with
        | .ok d => pure d
        | .error fault => if fault.isA .fileExistsError then pure d else throw fault
      else pure d
    match d.makeDirectory path.text with
    | .ok d => .ok d
    | .error e => if (← d.isDirectory path) then .ok d else .error (e.fault path.text)

/-- Removes the empty directory at a path. -/
def removeDirectory (d : Disk) (path : String) : Except Errno Disk := do
  let (loc, node) ← d.find false path
  if !node.isDirectory then .error .notDirectory
  else if !(d.tree.children loc).isEmpty then .error .notEmpty
  else .ok { d with tree := d.tree.erase loc }

/-! ## 2. Nodes -/

/-- Puts a node at a location in a directory. -/
def settle (d : Disk) (path : Path) (loc : Location) (node : Node) : Except Fault Disk :=
  Errno.name path.text (d.place loc node)

/-- Writes a file, through links. -/
def putFile (d : Disk) (path : Path) (node : Node) : Except Fault Disk := do
  let loc ← Errno.name path.text (d.locate true path.text)
  if (d.tree.get? loc).any Node.isDirectory then throw (Errno.isDirectory.fault path.text)
  d.settle path loc node

/-- Makes a directory, unless it is there, and gives it a mode. -/
def putDirectory (d : Disk) (path : Path) (mode : Nat) : Except Fault Disk := do
  let d ← d.makeAll (chain path)
  let loc ← Errno.name path.text (d.locate true path.text)
  return { d with tree := d.tree.set loc (.directory mode) }

/-- Makes a link at a path where nothing is. -/
def putLink (d : Disk) (path : Path) (target : String) : Except Fault Disk := do
  let named (e : Errno) : Fault :=
    .ofArgs .osError [.int e.number, .str e.text, .str target, .none, .str path.text]
  let loc ← (d.locate false path.text).mapError named
  if (d.tree.get? loc).isSome then throw (named .exists)
  d.settle path loc (.link target)

/-- Makes a pipe at a path where nothing is. -/
def putPipe (d : Disk) (path : Path) (mode : Nat) : Except Fault Disk := do
  let unnamed (e : Errno) : Fault := .ofArgs .osError [.int e.number, .str e.text]
  let loc ← (d.locate false path.text).mapError unnamed
  if (d.tree.get? loc).isSome then throw (unnamed .exists)
  d.settle path loc (.pipe mode)

/-- Puts a node at a path. -/
def put (d : Disk) (path : Path) (node : Node) : Except Fault Disk := do
  let d ← if path.parts.isEmpty then pure d else d.makeAll (chain path.parent)
  match pathFault? path.text with
  | some fault => throw fault
  | none =>
    match node with
    | .file .. => d.putFile path node
    | .directory mode => d.putDirectory path mode
    | .link target => d.putLink path target
    | .pipe mode => d.putPipe path mode

/-- A disk with the given nodes, less those that cannot be put on it. -/
def ofNodes (nodes : List (Path × Node)) : Disk :=
  nodes.foldl (fun d (path, node) => (d.put path node).toOption.getD d) {}

end Dissect.Files.Disk
