/-
# Access to class files

A class file named by a caller is used only if it is a regular file of acceptable size that lies,
once every link has been replaced, in or below one of the allowed directories.
-/
import Dissect.Files.Resolve

namespace Dissect.Access

open Files (Disk)

/-- The greatest size of a class file unless a caller says otherwise, in bytes. -/
def defaultMaxSize : Int := 64 * 1024 * 1024

/-- A failure to resolve the path itself. -/
def unresolved (fault : Fault) : Fault :=
  if fault.isA .osError || fault.isA .runtimeError then
    (Fault.ofText .pathTraversalError ("Invalid path: " ++ fault.message)).whileHandling fault
  else fault

/-- The path lies in or below a directory; one that cannot be resolved holds nothing. -/
def liesWithin (disk : Disk) (path directory : Path) : Bool :=
  match disk.resolve directory with
  | .ok directory => path.isWithin directory
  | .error _ => false

/-- The path lies within one of the allowed directories; an empty list allows all. -/
def isAllowed (disk : Disk) (path : Path) (allowed : List Path) : Bool :=
  allowed.isEmpty || allowed.any (liesWithin disk path)

/-- The size of the regular file at a path. -/
def fileSize (disk : Disk) (path : Path) : Except Fault Int :=
  match disk.stat path.text with
  | .ok (.file content _) => .ok content.size
  | .ok _ => .ok 0
  | .error e =>
    .error (.ofText .valueError ("Cannot get file size: " ++ (e.fault path.text).message))

/-- The link-free absolute path of the class file that a caller names, if it may be used. -/
def sanitize (disk : Disk) (classPath : String) (allowed : List Path := [])
    (maxSize : Int := defaultMaxSize) : Except Fault Path := do
  let path ← (disk.resolve (Path.ofText classPath)).mapError unresolved
  if !(← disk.exists? path) then
    throw (.ofText .fileNotFoundError ("File does not exist: " ++ classPath))
  if !(← disk.isFile path) then
    throw (.ofText .valueError ("Path is not a file: " ++ classPath))
  if !isAllowed disk path allowed then
    throw (.ofText .pathTraversalError
      ("Access denied: Path outside allowed directories: " ++ classPath))
  let size ← fileSize disk path
  if maxSize < size then
    throw (.ofText .fileSizeError
      ("File too large: " ++ toString size ++ " bytes (max: " ++ toString maxSize ++ ")"))
  return path

end Dissect.Access
