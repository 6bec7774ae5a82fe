/-
# Reading text files

A text file is read as UTF-8 with its line ends unified.  Bytes that are no text are a failure that
says where they are.
-/
import Dissect.Files.Disk
import Dissect.Text.Lines

namespace Dissect.Files

/-- The failure of bytes that are no text. -/
def decodeFault (e : Text.DecodeError) (data : Text.Bytes) : Fault :=
  { kind := .unicodeDecodeError,
    args := [.str "utf-8", .bytes data, .int e.position, .int (e.position + e.width),
      .str e.why.reason] }

/-- The text of the file at a path. -/
def Disk.readText (d : Disk) (path : String) : Except Fault String := do
  match pathFault? path with
  | some fault => throw fault
  | none => pure ()
  let data ← Errno.name path (d.read path)
  match Text.decode? data with
  | .ok text => return String.ofList (Text.unifyNewlines text.toList)
  | .error e => throw (decodeFault e data)

end Dissect.Files
