/-
# Link-free paths

Resolving makes a path absolute and replaces every link on the way by the path it holds, whether or
not anything stands at the end.  A link that is met while it is being replaced closes a loop; what
is then left of the path stays as it is, and a loop that the system also refuses is a failure.
-/
import Dissect.Files.Disk

namespace Dissect.Files

/-- The links replaced so far: each with the path by which it was met, and with the path that it led
to once that is known. -/
abbrev Replaced := List (Path × Option Path)

/-- The state of a replacement after some names: the path reached, whether no loop was met, and the
links replaced. -/
structure Progress where
  path : Path
  loopFree : Bool
  replaced : Replaced

/-- The target of the link at a path, if there is a link. -/
def linkAt? (d : Disk) (path : Path) : Option String :=
  match d.lstat path.text with
  | .ok (.link target) => some target
  | _ => none

/-- The path one level up.  A relative path may leave the directory that it starts from. -/
def above (path : Path) : Path :=
  match path.anchor, path.parts.getLast? with
  | .relative, none => ⟨.relative, [".."]⟩
  | .relative, some ".." => ⟨.relative, path.parts ++ [".."]⟩
  | _, _ => path.parent

/-- Where the target of a link in the given directory starts, and the names between its slashes.
Two slashes in a row have an empty name between them. -/
def targetSteps (directory : Path) (target : String) : Path × List String :=
  match Text.splitAt target '/' with
  | "" :: second :: rest => (⟨.root, []⟩, second :: rest)
  | names => (directory, names)

/-- The path with names added to it as they are.  Names whose text starts with a slash start at the
root again. -/
def extended (path : Path) (names : List String) : Path :=
  let added := names.filter (· != "")
  match names with
  | "" :: _ :: _ => ⟨.root, added⟩
  | _ => ⟨path.anchor, path.parts ++ added⟩

/-- Replaces the links on the way along some names.  The first argument bounds how deep links may
hold links. -/
def replaceLinks (d : Disk) : Nat → Replaced → Path → List String → Progress
  | _, replaced, path, [] => ⟨path, true, replaced⟩
  | depth, replaced, path, name :: rest =>
    if name = "" || name = "." then replaceLinks d depth replaced path rest
    else if name = ".." then replaceLinks d depth replaced (above path) rest
    else
      let next := extended path [name]
      match linkAt? d next with
      | none => replaceLinks d depth replaced next rest
      | some target =>
        match replaced.lookup next with
        | some (some known) => replaceLinks d depth replaced known rest
        | some none => ⟨extended next rest, false, replaced⟩
        | none =>
          match depth with
          | 0 => ⟨extended next rest, false, replaced⟩
          | depth + 1 =>
            let (start, names) := targetSteps path target
            let inner := replaceLinks d depth ((next, none) :: replaced) start names
            if inner.loopFree then
              replaceLinks d (depth + 1) ((next, some inner.path) :: inner.replaced) inner.path rest
            else ⟨extended inner.path rest, false, inner.replaced⟩
  termination_by depth _ _ names => (depth, names.length)

/-- The depth to which links are replaced in links.  The runtime replaces links in links by calls in
calls and fails with an error of recursion where the stack of calls ends, after somewhat fewer than
1000 of them.  How many depends on the calls around, so that failure is not told here, and what is
said of `resolve` is said of paths whose links are nested less deeply. -/
def maxReplacements : Nat := maxPathBytes

namespace Disk

/-- The absolute location of a path, every `..` taken to remove the name before it. -/
def locationOf (d : Disk) (path : Path) : Location :=
  Path.collapse (if path.isAbsolute then path.parts else d.cwd ++ path.parts)

/-- The location that a path denotes once all links are replaced. -/
def realLocation (d : Disk) (path : Path) : Location :=
  let start : Path := if path.isAbsolute then ⟨.root, []⟩ else ⟨.relative, []⟩
  d.locationOf (replaceLinks d maxReplacements [] start path.parts).path

/-- The failure of a path that still leads into a loop when its links are replaced. -/
def loopFault (path : Path) : Fault :=
  (Fault.ofText .runtimeError ("Symlink loop from " ++ Text.quote path.text)).whileHandling
    (Errno.tooManyLinks.fault path.text)

/-- The absolute path without links that a path denotes, for links in links up to the depth that
`maxReplacements` speaks of. -/
def resolve (d : Disk) (path : Path) : Except Fault Path :=
  match pathFault? path.text with
  | some fault => .error fault
  | none =>
    let real : Path := ⟨.root, d.realLocation path⟩
    match d.stat real.text with
    | .error .tooManyLinks => .error (loopFault real)
    | _ => .ok real

/-- A path that can be named resolves to its real location, unless that leads into a loop. -/
theorem resolve_ok_iff {d : Disk} {path real : Path} : d.resolve path = .ok real ↔
    pathFault? path.text = none ∧ real = ⟨.root, d.realLocation path⟩ ∧
      d.stat real.text ≠ .error .tooManyLinks := by
  unfold resolve
  cases pathFault? path.text with
  | some fault => simp
  | none =>
    dsimp only
    split
    · rename_i hloop
      constructor
      · nofun
      · rintro ⟨-, rfl, hno⟩
        exact absurd hloop hno
    · rename_i hno
      constructor
      · rintro ⟨⟩
        exact ⟨rfl, rfl, hno⟩
      · rintro ⟨-, rfl, -⟩
        rfl

/-- Resolving fails for a text that no path can be, and for a path that leads into a loop. -/
theorem resolve_error_iff {d : Disk} {path : Path} {fault : Fault} : d.resolve path = .error fault ↔
    pathFault? path.text = some fault ∨
      (pathFault? path.text = none ∧
        d.stat (Path.text ⟨.root, d.realLocation path⟩) = .error .tooManyLinks ∧
        fault = loopFault ⟨.root, d.realLocation path⟩) := by
  unfold resolve
  cases pathFault? path.text with
  | some trouble => simp
  | none =>
    dsimp only
    split
    · rename_i hloop
      simp [hloop, eq_comm]
    · rename_i hno
      constructor
      · nofun
      · rintro (⟨⟨⟩⟩ | ⟨-, hloop, -⟩)
        exact absurd hloop hno

/-- The absolute path that a text denotes when links are left alone. -/
def absolute (d : Disk) (path : Path) : Path :=
  ⟨if path.isAbsolute then path.anchor else .root, d.locationOf path⟩

end Disk

end Dissect.Files
