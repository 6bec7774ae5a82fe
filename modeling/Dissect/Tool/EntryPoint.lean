/-
# Entry points

An entry point names a routine inside a tool as `module:function`.
-/
import Dissect.Fault.Basic
import Dissect.Text.Blank

namespace Dissect

/-- A routine in a tool: the module to load and the name in it. -/
structure EntryPoint where
  module : String
  routine : String
deriving DecidableEq, Repr

namespace EntryPoint

/-- The entry point that is used when none is set. -/
def defaultText : String := "javap:main"

/-- The failure of a text that names no entry point. -/
def malformed (s : String) : Fault :=
  .ofText .valueError ("Entry point must look like 'module:function', got " ++ Text.quote s)

/-- The entry point that a text names.  The first colon divides it, and neither part may be
blank. -/
def parse (s : String) : Except Fault EntryPoint :=
  match Text.cut? s ':' with
  | none => .error (malformed s)
  | some (module, routine) =>
    let module := Text.strip module
    let routine := Text.strip routine
    if module = "" || routine = "" then .error (malformed s) else .ok ⟨module, routine⟩

/-- The first component of the module's name. -/
def topLevel (e : EntryPoint) : String := (Text.splitAt e.module '.').headD ""

end EntryPoint

end Dissect
