/-
# The tool configuration

The settings that decide which tool is run and how: its installation, the backend that drives it,
its entry point, and where temporary class files go.
-/
import Dissect.Settings.Lookup
import Dissect.Tool.EntryPoint

namespace Dissect

/-- The configuration of the external tool.  Without a tool path nothing is run; without a directory
for temporary files the system's is used. -/
structure ToolConfiguration where
  toolPath : Option Path := none
  backend : String := "javap"
  entryPoint : String := EntryPoint.defaultText
  tempDirectory : Option Path := none
deriving DecidableEq, Repr

namespace ToolConfiguration

/-- An installation path is set. -/
def isConfigured (c : ToolConfiguration) : Bool := c.toolPath.isSome

/-- A setting's value, unless it is missing or empty. -/
def textOr (value : Option String) (default : String) : String :=
  match value with
  | none => default
  | some s => if s = "" then default else s

/-- The configuration that the settings describe. -/
def ofSettings : Run ToolConfiguration := do
  let toolPath ← Settings.path "JAVA_TOOLS"
  let backend ← Settings.get? "CLASSVIEW_DISASSEMBLER"
  let entryPoint ← Settings.get? "CLASSVIEW_TOOL_ENTRY_POINT"
  let tempDirectory ← Settings.path "CLASSVIEW_TEMP_DIR"
  return {
    toolPath, tempDirectory,
    backend := Text.lower (Text.strip (textOr backend "javap")),
    entryPoint := Text.strip (textOr entryPoint EntryPoint.defaultText) }

end ToolConfiguration

end Dissect
