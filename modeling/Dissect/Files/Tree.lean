/-
# File trees

A file tree assigns a node to each location, where a location is the list of names on the way from
the root.  The root itself is always a directory.  Nodes keep the order in which they were made.
-/
import Dissect.Assoc
import Dissect.Tool.Program
import Dissect.Tool.Script

namespace Dissect.Files

open Text (Bytes)

/-- The names on the way from the root. -/
abbrev Location := List String

/-- What a regular file holds: bytes, a run of zero bytes, a program, a module, or the shell that
runs command files. -/
inductive Content where
  | bytes (data : Bytes)
  | zeros (count : Nat)
  | program (p : Program)
  | script (s : Script)
  | shell
deriving Repr

/-- The bytes of a file.  Programs, modules and the shell are known by what they do, not by their
bytes. -/
def Content.data : Content → Bytes
  | .bytes data => data
  | .zeros count => List.replicate count 0
  | .program _ => []
  | .script _ => []
  | .shell => []

/-- The size of a file. -/
def Content.size : Content → Nat
  | .bytes data => data.length
  | .zeros count => count
  | .program _ => 0
  | .script _ => 0
  | .shell => 0

/-- What stands at a location. -/
inductive Node where
  | file (content : Content) (mode : Nat)
  | directory (mode : Nat)
  | link (target : String)
  | pipe (mode : Nat)
deriving Repr

namespace Node

/-- The node is a directory. -/
def isDirectory : Node → Bool
  | .directory _ => true
  | _ => false

/-- The node is a regular file. -/
def isFile : Node → Bool
  | .file .. => true
  | _ => false

/-- The node may be executed or, as a directory, entered. -/
def isExecutable : Node → Bool
  | .directory _ => true
  | .file _ mode => mode &&& 0o111 != 0
  | .pipe mode => mode &&& 0o111 != 0
  | .link _ => false

end Node

/-- A file tree. -/
structure Tree where
  nodes : List (Location × Node) := []
deriving Repr

namespace Tree

/-- The node at a location. -/
def get? (t : Tree) (loc : Location) : Option Node :=
  if loc = [] then some (.directory 0o755) else t.nodes.lookup loc

/-- The tree with a node put at a location. -/
def set (t : Tree) (loc : Location) (node : Node) : Tree := ⟨Assoc.set loc node t.nodes⟩

/-- The tree without a location and all below it. -/
def erase (t : Tree) (loc : Location) : Tree :=
  ⟨t.nodes.filter fun (l, _) => !loc.isPrefixOf l⟩

/-- The name of a location directly below another one. -/
def childName? (parent loc : Location) : Option String :=
  match loc.getLast? with
  | some name => if loc.dropLast = parent then some name else none
  | none => none

/-- The names directly below a location. -/
def children (t : Tree) (loc : Location) : List String :=
  t.nodes.filterMap fun (l, _) => childName? loc l

/-! ## 1. Laws -/

theorem get?_set_self {t : Tree} {loc : Location} (h : loc ≠ []) (node : Node) :
    (t.set loc node).get? loc = some node := by
  simp [get?, set, h, Assoc.lookup_set_self]

theorem get?_set_of_ne {t : Tree} {loc other : Location} (h : other ≠ loc) (node : Node) :
    (t.set loc node).get? other = t.get? other := by
  simp [get?, set, Assoc.lookup_set_of_ne h]

end Tree

end Dissect.Files
