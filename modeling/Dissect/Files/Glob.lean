/-
# File name patterns

A pattern is a path whose components may hold `*` for any characters, `?` for one, and sets of
characters in brackets.  A component without any of these is an exact name, and one of two stars
stands for any number of directories.
-/
import Dissect.Files.Disk

namespace Dissect.Files

/-! ## 1. Patterns for a name -/

/-- A piece of a pattern. -/
inductive GlobPiece where
  | any
  | one
  | exactly (c : Char)
  | set (negated : Bool) (ranges : List (Char × Char))
deriving DecidableEq, Repr

namespace Glob

/-- The ranges that the inside of a set names; a character alone is a range of one. -/
def setRanges : List Char → List (Char × Char)
  | a :: '-' :: b :: rest => (a, b) :: setRanges rest
  | a :: rest => (a, a) :: setRanges rest
  | [] => []

/-- The inside of a set after its opening bracket, and what follows the closing one.  A closing
bracket that comes first belongs to the set. -/
def setBody (cs : List Char) : Option (Bool × List Char × List Char) :=
  let (negated, cs) := match cs with
    | '!' :: rest => (true, rest)
    | cs => (false, cs)
  let (first, cs) := match cs with
    | ']' :: rest => ([']'], rest)
    | cs => ([], cs)
  let body := cs.takeWhile (· != ']')
  match cs.dropWhile (· != ']') with
  | [] => none
  | _ :: rest => some (negated, first ++ body, rest)

/-- The pieces of a pattern. -/
def piecesOf : Nat → List Char → List GlobPiece
  | 0, _ => []
  | _ + 1, [] => []
  | fuel + 1, c :: rest =>
    if c = '*' then .any :: piecesOf fuel rest
    else if c = '?' then .one :: piecesOf fuel rest
    else if c = '[' then
      match setBody rest with
      | some (negated, body, rest) => .set negated (setRanges body) :: piecesOf fuel rest
      | none => .exactly '[' :: piecesOf fuel rest
    else .exactly c :: piecesOf fuel rest

/-- The character satisfies a piece that stands for one character. -/
def GlobPiece.admits (piece : GlobPiece) (c : Char) : Bool :=
  match piece with
  | .any => false
  | .one => true
  | .exactly d => c = d
  | .set negated ranges => (ranges.any fun (a, b) => a ≤ c && c ≤ b) != negated

/-- Some end of the characters, which may be all of them or none, passes a test. -/
def anyEnd (test : List Char → Bool) : List Char → Bool
  | [] => test []
  | c :: rest => test (c :: rest) || anyEnd test rest

/-- The pieces describe the characters. -/
def matchPieces : List GlobPiece → List Char → Bool
  | [], cs => cs.isEmpty
  | .any :: pieces, cs => anyEnd (matchPieces pieces) cs
  | piece :: pieces, cs =>
    match cs with
    | [] => false
    | c :: rest => GlobPiece.admits piece c && matchPieces pieces rest

/-- A name fits a pattern. -/
def fits (pattern name : String) : Bool :=
  matchPieces (piecesOf (pattern.length + 1) pattern.toList) name.toList

/-- The component is a pattern and not an exact name. -/
def isPattern (component : String) : Bool :=
  component.toList.any fun c => c = '*' || c = '?' || c = '['

/-! ## 2. Patterns for paths -/

/-- The failure of a pattern that mixes two stars with other characters. -/
def invalidPattern : Fault :=
  .ofText .valueError "Invalid pattern: '**' can only be an entire path component"

/-- The directory at a path and all directories below it, down to a depth; links are not
followed. -/
def withSubdirectories (disk : Disk) : Nat → Path → List Path
  | 0, directory => [directory]
  | depth + 1, directory =>
    let names := (disk.names directory.text).toOption.getD []
    let inner := (names.map directory.child).filter fun path =>
      (disk.lstat path.text).toOption.any Node.isDirectory
    directory :: inner.flatMap (withSubdirectories disk depth)

/-- The paths without those that came before. -/
def withoutRepeats (paths : List Path) : List Path :=
  paths.foldl (fun seen path => if seen.contains path then seen else seen ++ [path]) []

/-- The directories among paths. -/
def directoriesIn (disk : Disk) (paths : List Path) : Except Fault (List Path) :=
  paths.filterM disk.isDirectory

/-- The paths below a directory that fit the components of a pattern.  Two stars stand for any
number of directories. -/
def select (disk : Disk) (directory : Path) : List String → Except Fault (List Path)
  | [] => .ok [directory]
  | component :: rest => do
    if component = "**" then
      let starts := withSubdirectories disk disk.tree.nodes.length directory
      return withoutRepeats (← starts.mapM fun path => select disk path rest).flatten
    else if isPattern component then
      let names := (disk.names directory.text).toOption.getD []
      let paths := (names.filter (fits component)).map directory.child
      let paths ← if rest.isEmpty then pure paths else directoriesIn disk paths
      return (← paths.mapM fun path => select disk path rest).flatten
    else
      let path := directory.child component
      let there ← if rest.isEmpty then disk.exists? path else disk.isDirectory path
      if there then select disk path rest else return []

/-- The paths below a directory that fit a pattern. -/
def paths (disk : Disk) (directory : Path) (pattern : String) : Except Fault (List Path) :=
  let components := Path.partsOf pattern
  if components.any fun c => Text.contains c "**" && c != "**" then .error invalidPattern
  else do
    if !(← disk.isDirectory directory) then return []
    select disk directory components

end Glob

end Dissect.Files
