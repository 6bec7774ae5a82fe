/-
# Backends

A backend knows how to drive one kind of disassembler: the arguments it takes, how its installation
is entered, and which failures it ends a successful run with.
-/
import Dissect.Settings.Tool
import Dissect.Signal
import Dissect.Tool.JavaTools
import Dissect.Tool.ModuleTools

namespace Dissect

/-- The kinds of disassembler: javap from a Java installation, or a directory of modules with an
entry point. -/
inductive Engine where
  | javap
  | module (entry : EntryPoint) (entryText : String)
deriving DecidableEq, Repr

/-- The name of an engine in the settings. -/
def Engine.name : Engine → String
  | .javap => "javap"
  | .module .. => "module"

/-- A backend. -/
structure Backend where
  engine : Engine
  label : String
  arguments : List String
  signals : List Signal := [Signal.cleanExit]

namespace Backend

/-- All members, disassembled code, and the values of constants. -/
def defaultArguments : List String := ["-p", "-c", "-constants"]

/-- The javap backend. -/
def javap : Backend := { engine := .javap, label := "JavaP", arguments := defaultArguments }

/-- The display label of a directory of modules. -/
def moduleLabel : String := "Python Disassembler"

/-- The backend for a directory of modules with the entry point that a text names. -/
def module (entryText : String := EntryPoint.defaultText) (label : String := moduleLabel)
    (arguments : List String := defaultArguments) : Except Fault Backend := do
  return { engine := .module (← EntryPoint.parse entryText) entryText, label, arguments }

/-- The backend that a configuration names. -/
def ofConfiguration (c : ToolConfiguration) : Except Fault Backend :=
  match c.backend with
  | "javap" => .ok javap
  | "module" =>
    (module c.entryPoint).mapError fun fault =>
      (Fault.ofText .valueError
        ("Invalid CLASSVIEW_TOOL_ENTRY_POINT: " ++ fault.message)).causedBy fault
  | other =>
    .error (.ofText .valueError
      ("Unknown disassembler backend '" ++ other ++ "'. Valid options: javap, module"))

/-- The name of the backend in the settings. -/
def name (b : Backend) : String := b.engine.name

/-- The backend's arguments followed by the path of the class file. -/
def argumentsFor (b : Backend) (resource : Path) : List String := b.arguments ++ [resource.text]

/-- Opens the tool under a root and uses it: the use is given what calls the entry point. -/
def withEntry {α : Type} (b : Backend) (root : Path)
    (use : (List String → Run Unit) → Run α) : Run α :=
  match b.engine with
  | .javap => JavaTools.withEntry { root } use
  | .module entry entryText =>
    ModuleTools.withEntry { root, entry, entryText } fun call =>
      use fun arguments => do let _ ← call arguments

/-! ## 1. Diagnosis -/

/-- How the tool of a backend resolves under a root. -/
inductive Resolution where
  | java (d : JavaTools.Description)
  | modules (d : ModuleTools.Description)

namespace Resolution

/-- The tool resolves. -/
def resolved : Resolution → Bool
  | .java d => d.command.toBool
  | .modules d => d.found.toOption.getD false

/-- The command that starts the tool, if it is one. -/
def command? : Resolution → Option (List String)
  | .java d => d.command.toOption
  | .modules _ => none

/-- The text that named the entry point, if the tool has one. -/
def entryText? : Resolution → Option String
  | .java _ => none
  | .modules d => some d.entryText

/-- What stands in the way. -/
def error? : Resolution → Option String
  | .java ⟨_, .error message⟩ => some message
  | .modules ⟨_, _, .error message⟩ => some message
  | _ => none

/-- The resolution as a document. -/
def document : Resolution → Json
  | .java d => d.document
  | .modules d => d.document

end Resolution

/-- How the tool resolves under a root. -/
def resolution (b : Backend) (root : Path) (host : Host) : Except Fault Resolution :=
  match b.engine with
  | .javap => (JavaTools.describe { root } host).map .java
  | .module entry entryText =>
    (ModuleTools.describe { root, entry, entryText } host.disk).map .modules

/-- The state of an installation: how it resolves if one is configured, and, of javap, the version
that it reports. -/
structure Diagnosis where
  backend : String
  label : String
  arguments : List String
  toolRoot : Option Path
  resolution : Option Resolution
  version : Option String
  hasVersion : Bool

/-- The members of a diagnosis as a document. -/
def Diagnosis.members (d : Diagnosis) : List (String × Json) :=
  [("backend", .str d.backend), ("label", .str d.label),
    ("arguments", .arr (d.arguments.map .str)),
    ("tool_root", Json.ofText? (d.toolRoot.map Path.text)),
    ("configured", .bool d.toolRoot.isSome)] ++
  (d.resolution.map fun r => ("loader", r.document)).toList ++
  (if d.hasVersion then [("javap_version", Json.ofText? d.version)] else [])

/-- Diagnoses the installation at a root. -/
def diagnose (b : Backend) (toolRoot : Option Path) : Run Diagnosis := do
  let start : Diagnosis :=
    { backend := b.name, label := b.label, arguments := b.arguments, toolRoot,
      resolution := none, version := none, hasVersion := b.engine matches .javap }
  match toolRoot with
  | none => return start
  | some root => do
    let resolution ← Run.query (b.resolution root)
    match b.engine with
    | .javap => do
      let version ← JavaTools.version { root }
      return { start with resolution := some resolution, version }
    | .module .. => return { start with resolution := some resolution }

end Backend

end Dissect
