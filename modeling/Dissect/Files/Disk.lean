/-
# The disk

A file tree as a running program sees it: with a working directory and with the paths to which an
access check is denied.  A path is followed name by name; `..` leaves the directory that has been
reached, and a link stands for the path it holds.  The user may read, write and enter everything,
so only a missing execute bit and the denials restrict access.
-/
import Dissect.Files.Errno
import Dissect.Files.Tree

namespace Dissect.Files

open Text (Bytes)

/-- A file tree with a point of view. -/
structure Disk where
  tree : Tree := {}
  cwd : Location := []
  denied : List String := []
deriving Repr

/-! ## 1. Following paths -/

/-- The longest name of a file, in bytes. -/
def maxNameBytes : Nat := 255

/-- The least length of a path that is too long, in bytes. -/
def maxPathBytes : Nat := 4096

/-- The number of links that one path may lead through. -/
def maxLinks : Nat := 40

/-- The names that a raw text leads through.  A slash at the end asks for a directory. -/
def rawNames (s : String) : List String :=
  let names := (Text.splitAt s '/').filter (· != "")
  if Text.endsWith s "/" then names ++ ["."] else names

/-- Where a raw text starts. -/
def rawStart (cwd : Location) (s : String) : Location :=
  if Text.startsWith s "/" then [] else cwd

/-- How far names lead without following a link: to a location, or to a link in a directory with
names still to go. -/
inductive Stop where
  | done (loc : Location)
  | link (directory : Location) (target : String) (rest : List String)
deriving Repr

/-- Follows names up to the next link.  Only the last name may be missing; a link there is
followed or not as asked. -/
def descend (tree : Tree) (followLast : Bool) : Location → List String → Except Errno Stop
  | loc, [] => .ok (.done loc)
  | loc, name :: rest =>
    if !((tree.get? loc).any (·.isDirectory)) then .error .notDirectory
    else if name = "." then descend tree followLast loc rest
    else if name = ".." then descend tree followLast loc.dropLast rest
    else if maxNameBytes < name.utf8ByteSize then .error .nameTooLong
    else
      match tree.get? (loc ++ [name]) with
      | none => if rest.isEmpty then .ok (.done (loc ++ [name])) else .error .noEntry
      | some (.link target) =>
        if rest.isEmpty && !followLast then .ok (.done (loc ++ [name]))
        else .ok (.link loc target rest)
      | some _ => descend tree followLast (loc ++ [name]) rest

/-- Follows names through at most the given number of links. -/
def follow (tree : Tree) (followLast : Bool) : Nat → Location → List String →
    Except Errno Location
  | links, loc, names =>
    match descend tree followLast loc names with
    | .error e => .error e
    | .ok (.done loc) => .ok loc
    | .ok (.link directory target rest) =>
      match links with
      | 0 => .error .tooManyLinks
      | links + 1 =>
        follow tree followLast links (rawStart directory target) (rawNames target ++ rest)

namespace Disk

/-- The location that a path leads to; it may be vacant. -/
def locate (d : Disk) (followLast : Bool) (path : String) : Except Errno Location :=
  if path = "" then .error .noEntry
  else if maxPathBytes ≤ path.utf8ByteSize then .error .nameTooLong
  else follow d.tree followLast maxLinks (rawStart d.cwd path) (rawNames path)

/-- The location that a path leads to and the node there. -/
def find (d : Disk) (followLast : Bool) (path : String) : Except Errno (Location × Node) := do
  let loc ← d.locate followLast path
  match d.tree.get? loc with
  | some node => .ok (loc, node)
  | none => .error .noEntry

/-- The node that a path leads to. -/
def stat (d : Disk) (path : String) : Except Errno Node := (d.find true path).map (·.2)

/-- The node at a path itself, be it a link. -/
def lstat (d : Disk) (path : String) : Except Errno Node := (d.find false path).map (·.2)

/-! ## 2. Questions -/

/-- A text that no path can hold. -/
def hasNul (path : String) : Bool := path.toList.contains (Char.ofNat 0)

/-- The failure of an operation on a path with a NUL character. -/
def nulFault : Fault := .ofText .valueError "embedded null byte"

/-- A lone code unit that stands for no byte of a path. -/
def isUnencodable (c : Char) : Bool := (Text.loneUnit? c).isSome && (Text.strayByte? c).isNone

/-- The failure of an operation on a text that is no sequence of bytes, from the position of the
first character that is none. -/
def unencodableFault (path : String) (position : Nat) : Fault :=
  let rest := (path.toList.drop position).takeWhile fun c => (Text.loneUnit? c).isSome
  { kind := .unicodeEncodeError,
    args := [.str "utf-8", .str path, .int position, .int (position + rest.length),
      .str "surrogates not allowed"] }

/-- The failure of every operation on a text that is no sequence of bytes. -/
def encodingFault? (text : String) : Option Fault :=
  (text.toList.findIdx? isUnencodable).map (unencodableFault text)

/-- The failure of every operation on a text that no path can be. -/
def pathFault? (path : String) : Option Fault :=
  (encodingFault? path).or (if hasNul path then some nulFault else none)

/-- The node at a path has a property.  Nothing at the path has none; other errors are failures. -/
def check (d : Disk) (path : Path) (property : Node → Bool) : Except Fault Bool :=
  if (pathFault? path.text).isSome then .ok false
  else
    match d.stat path.text with
    | .ok node => .ok (property node)
    | .error e => if e.meansAbsent then .ok false else .error (e.fault path.text)

/-- Something is at the path. -/
def exists? (d : Disk) (path : Path) : Except Fault Bool := d.check path fun _ => true

/-- A regular file is at the path. -/
def isFile (d : Disk) (path : Path) : Except Fault Bool := d.check path Node.isFile

/-- A directory is at the path. -/
def isDirectory (d : Disk) (path : Path) : Except Fault Bool := d.check path Node.isDirectory

/-- The user may read what is at the path. -/
def canRead (d : Disk) (path : String) : Bool :=
  !d.denied.contains path && (d.stat path matches .ok _)

/-- The user may execute or enter what is at the path. -/
def canExecute (d : Disk) (path : String) : Bool :=
  !d.denied.contains path &&
    match d.stat path with
    | .ok node => node.isExecutable
    | .error _ => false

/-! ## 3. Reading and writing -/

/-- The bytes of the file at a path. -/
def read (d : Disk) (path : String) : Except Errno Bytes := do
  match ← d.stat path with
  | .file content _ => .ok content.data
  | .directory _ => .error .isDirectory
  | _ => .ok []

/-- Puts a node at a vacant location, whose parent has to be a directory. -/
def place (d : Disk) (loc : Location) (node : Node) : Except Errno Disk :=
  match d.tree.get? loc.dropLast with
  | some (.directory _) => .ok { d with tree := d.tree.set loc node }
  | some _ => .error .notDirectory
  | none => .error .noEntry

/-- Writes a file, making it if there is none. -/
def write (d : Disk) (path : String) (data : Bytes) : Except Errno Disk := do
  let loc ← d.locate true path
  match d.tree.get? loc with
  | none =>
    if Text.endsWith path "/" then .error .isDirectory
    else d.place loc (.file (.bytes data) 0o644)
  | some (.file _ mode) => .ok { d with tree := d.tree.set loc (.file (.bytes data) mode) }
  | some (.directory _) => .error .isDirectory
  | some _ => .ok d

/-- Makes an empty file that only its owner may use, at a path where nothing is. -/
def create (d : Disk) (path : String) : Except Errno Disk := do
  let loc ← d.locate false (String.ofList (path.toList.reverse.dropWhile (· = '/')).reverse)
  match d.tree.get? loc with
  | some _ => .error .exists
  | none =>
    if Text.endsWith path "/" then .error .isDirectory
    else d.place loc (.file (.bytes []) 0o600)

/-- Removes the file or link at a path. -/
def unlink (d : Disk) (path : String) : Except Errno Disk := do
  let (loc, node) ← d.find false path
  if node.isDirectory then .error .isDirectory else .ok { d with tree := d.tree.erase loc }

/-- Makes a directory at a path where nothing is. -/
def makeDirectory (d : Disk) (path : String) : Except Errno Disk := do
  let loc ← d.locate false path
  match d.tree.get? loc with
  | some _ => .error .exists
  | none => d.place loc (.directory 0o755)

/-- Makes a directory and the missing ones above it, the path of each being given, nearest first.
A directory that is there already will do. -/
def makeDirectories (d : Disk) : List Path → Except Fault Disk
  | [] => .ok d
  | path :: above =>
    match d.makeDirectory path.text with
    | .ok d => .ok d
    | .error .noEntry =>
      if above.isEmpty then .error (Errno.noEntry.fault path.text)
      else do
        let d ← d.makeDirectories above
        match d.makeDirectory path.text with
        | .ok d => .ok d
        | .error e => if (← d.isDirectory path) then .ok d else .error (e.fault path.text)
    | .error e => do
      if (← d.isDirectory path) then .ok d else .error (e.fault path.text)

/-- The names in the directory at a path. -/
def names (d : Disk) (path : String) : Except Errno (List String) := do
  let (loc, node) ← d.find true path
  if node.isDirectory then .ok (d.tree.children loc) else .error .notDirectory

end Disk

/-- A path and those above it, nearest first. -/
def Disk.chain (path : Path) : List Path :=
  (List.range (path.parts.length + 1)).reverse.map fun n => ⟨path.anchor, path.parts.take n⟩

end Dissect.Files
