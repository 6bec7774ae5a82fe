/-
# Paths

A path is an anchor and a list of component names.  Reading a text into a path forgets repeated
slashes and `.` components but keeps `..`, because a link may make `a/..` differ from `.`.  Two
leading slashes are an anchor of their own; three or more count as one.
-/
import Dissect.Text.Scan
import Dissect.Text.Quoted

namespace Dissect

/-- Where a path starts: at the working directory, at the root, or at the double-slash root. -/
inductive Anchor where
  | relative
  | root
  | doubleRoot
deriving DecidableEq, Repr

/-- The text of the anchor. -/
def Anchor.text : Anchor → String
  | .relative => ""
  | .root => "/"
  | .doubleRoot => "//"

/-- A path: its anchor and its components, none of which is empty, `.` or holds a slash. -/
structure Path where
  anchor : Anchor
  parts : List String
deriving DecidableEq, Repr

namespace Path

/-- The anchor that the leading slashes of a text stand for. -/
def anchorOf (s : String) : Anchor :=
  match (s.toList.takeWhile (· = '/')).length with
  | 0 => .relative
  | 2 => .doubleRoot
  | _ => .root

/-- The components that a text names. -/
def partsOf (s : String) : List String :=
  (Text.splitAt s '/').filter fun part => part != "" && part != "."

/-- The path that a text denotes. -/
def ofText (s : String) : Path := ⟨anchorOf s, partsOf s⟩

/-- The text of a path; the empty relative path is a dot. -/
def text (p : Path) : String :=
  match p.anchor, p.parts with
  | .relative, [] => "."
  | anchor, parts => anchor.text ++ Text.join "/" parts

/-- The path starts at a root. -/
def isAbsolute (p : Path) : Bool := p.anchor != .relative

/-- A path as seen from another one: an absolute path stands for itself. -/
def join (base p : Path) : Path :=
  if p.isAbsolute then p else ⟨base.anchor, base.parts ++ p.parts⟩

/-- The path one component further down. -/
def child (base : Path) (name : String) : Path := base.join (ofText name)

/-- The last component, or nothing. -/
def name (p : Path) : String := p.parts.getLast?.getD ""

/-- The path without its last component. -/
def parent (p : Path) : Path := ⟨p.anchor, p.parts.dropLast⟩

/-- A file name cut before its last dot, unless that dot is its first or its last character. -/
def splitSuffix (name : String) : String × String :=
  let cs := name.toList
  let suffix := (cs.reverse.takeWhile (· != '.')).reverse
  let stem := cs.take (cs.length - suffix.length - 1)
  if suffix.isEmpty || stem.isEmpty || !cs.contains '.' then (name, "")
  else (String.ofList stem, String.ofList ('.' :: suffix))

/-- The last component without its suffix. -/
def stem (p : Path) : String := (splitSuffix p.name).1

/-- The suffix of the last component, with its dot. -/
def suffix (p : Path) : String := (splitSuffix p.name).2

/-- The path lies in or below a directory, component by component. -/
def isWithin (p directory : Path) : Bool :=
  p.anchor == directory.anchor && directory.parts.isPrefixOf p.parts

/-- The components above which a component leads: `..` removes one and `.` keeps all. -/
def collapseStep (above : List String) (part : String) : List String :=
  if part = ".." then above.drop 1 else if part = "." then above else part :: above

/-- The components after every `..` has removed the one before it. -/
def collapse (parts : List String) : List String := (parts.foldl collapseStep []).reverse

/-! ## 1. Laws -/

theorem join_of_absolute {base p : Path} (h : p.isAbsolute = true) : base.join p = p := by
  simp [join, h]

theorem isWithin_self (p : Path) : p.isWithin p = true := by
  simp [isWithin]

theorem isWithin_iff {p directory : Path} :
    p.isWithin directory = true ↔ p.anchor = directory.anchor ∧ directory.parts <+: p.parts := by
  simp [isWithin]

end Path

end Dissect
