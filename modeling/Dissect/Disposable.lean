/-
# Disposable class files

A tool wants a path and not bytes, so the bytes of a class are written to a file with a fresh name
that lives for one run.  Deleting such a file never fails: trouble is reported, and a file that is
gone already is fine.
-/
import Dissect.Host

namespace Dissect

open Files (Disk Errno)

/-- A handle on a disposable file.  Once deleted it stays so. -/
structure Disposable where
  path : Path
  deleted : Bool := false
deriving DecidableEq, Repr

namespace Disposable

/-! ## 1. Fresh names -/

/-- What the names of disposable files begin with. -/
def nameStart : String := "classview_"

/-- The characters of the varying part of a name. -/
def nameAlphabet : List Char := "abcdefghijklmnopqrstuvwxyz0123456789_".toList

/-- The varying part of the name with the given number, as digits over the alphabet. -/
def nameDigits : Nat → Nat → List Char
  | 0, _ => []
  | width + 1, n =>
    nameDigits width (n / nameAlphabet.length) ++ [nameAlphabet[n % nameAlphabet.length]?.getD '_']

/-- The path of the disposable file with the given number. -/
def candidate (directory : Path) (suffix : String) (n : Nat) : String :=
  let start := if directory.parts.isEmpty then directory.text else directory.text ++ "/"
  start ++ nameStart ++ String.ofList (nameDigits 8 n) ++ suffix

/-- How many names are tried. -/
def maxAttempts : Nat := 10000

/-- Makes an empty file under the first free name from the given number on: the disk, the path and
the number of the next name. -/
def claim (disk : Disk) (directory : Path) (suffix : String) : Nat → Nat →
    Except Fault (Disk × String × Nat)
  | 0, _ =>
    .error (.ofArgs .fileExistsError [.int 17, .str "No usable temporary file name found"])
  | attempts + 1, n =>
    let path := candidate directory suffix n
    match Disk.pathFault? path with
    | some fault => .error fault
    | none =>
      match disk.create path with
      | .ok disk => .ok (disk, path, n + 1)
      | .error .exists => claim disk directory suffix attempts (n + 1)
      | .error e => .error (e.fault path)

/-! ## 2. Lifetime -/

/-- The failure to make a disposable file. -/
def createFault (cause : Fault) : Fault :=
  cause.retold fun message =>
    .ofText .ephemeralResourceError ("Failed to create temporary class file: " ++ message)

/-- The failure to fill a disposable file. -/
def writeFault (path : String) (cause : Fault) : Fault :=
  cause.retold fun message =>
    .ofText .ephemeralResourceError
      ("Failed to write temporary class file " ++ path ++ ": " ++ message)

/-- Only failures of the operating system are turned into failures of this kind. -/
def recast (make : Fault → Fault) (fault : Fault) : Fault :=
  if fault.isA .osError then make fault else fault

/-- The warning about a file that cannot be deleted. -/
def deleteWarning (path : Path) (e : Errno) : String :=
  "Failed to delete temporary class file " ++ path.text ++ ": " ++ (e.fault path.text).message

/-- Deletes the file behind a handle: the host and whether the file is gone. -/
def remove (path : Path) (host : Host) : Host × Bool :=
  match host.disk.unlink path.text with
  | .ok disk => ({ host with disk }, true)
  | .error .noEntry => (host, true)
  | .error e => (host.noted .warning (deleteWarning path e), false)

/-- The host after the file behind a handle has been deleted, if it was not before. -/
def discard (d : Disposable) (host : Host) : Host :=
  if d.deleted then host else (remove d.path host).1

/-- Deletes the file behind a handle and gives the handle as it is then. -/
def delete (d : Disposable) : Run Disposable := fun host =>
  if d.deleted then (.ok d, host)
  else
    let (host, gone) := remove d.path host
    (.ok { d with deleted := gone }, host)

/-- The bytes of a value that can be written to a file. -/
def bytesOf (data : Value) : Except Fault Text.Bytes :=
  match data with
  | .bytes data => .ok data
  | .buffer data => .ok data
  | .view data => .ok data
  | other =>
    .error (.ofText .typeError ("a bytes-like object is required, not '" ++ other.kind ++ "'"))

/-- Opens the new file for writing, which fails if the host says so, and writes the data. -/
def fill (path : String) (data : Value) : Run Unit := do
  match (← get).openFault with
  | some fault => throw fault.afterRaise
  | none => do
    let bytes ← Run.ofExcept (bytesOf data)
    Run.changeDisk fun disk => Errno.name path (disk.write path bytes)

/-- Writes data to a new file with a fresh name in a directory, or in the system's.  Where the
operating system refuses to write, the file is deleted again. -/
def create (data : Value) (directory : Option Path) (suffix : String := ".class") :
    Run Disposable := do
  let host ← get
  let directory := host.disk.absolute (directory.getD (Path.ofText host.systemTemp))
  match claim host.disk directory suffix maxAttempts host.namesTaken with
  | .error fault => throw (recast createFault fault)
  | .ok (disk, path, namesTaken) => do
    set { host with disk, namesTaken }
    let handle : Disposable := { path := Path.ofText path }
    match ← Run.attempt (fill path data) with
    | .ok () => return handle
    | .error fault => do
      if fault.isA .osError then
        modify handle.discard
        throw (writeFault path fault)
      else throw fault

/-- The file behind a handle is there. -/
def exists? (d : Disposable) : Run Bool := Run.query fun host => host.disk.exists? d.path

/-- The handle as a text. -/
def text (d : Disposable) : String := "EphemeralResource(" ++ Text.quote d.path.text ++ ")"

end Disposable

end Dissect
