/-
# Functions offered to clients

The four functions that clients call with texts and that answer with texts: disassembling a file,
disassembling bytes, diagnosing the installation, and summing up recorded failures.
-/
import Dissect.Service
import Dissect.Text.Base64

namespace Dissect.Functions

/-- The names under which the functions are offered, in alphabetical order. -/
def names : List String :=
  ["diagnose_disassembler", "disassemble_class", "disassemble_class_bytes",
   "get_disassembly_errors"]

/-! ## 1. Disassembling -/

/-- Failures that are the caller's to mend. -/
def isCallerFault (fault : Fault) : Bool :=
  fault.isA .fileNotFoundError || fault.isA .pathTraversalError || fault.isA .fileSizeError ||
    fault.isA .valueError

/-- Disassembles the class file at a path. -/
def disassembleClass (s : Service) (classPath : String) : Run String := do
  match ← Run.attempt (s.disassembleFile classPath) with
  | .ok outcome => return outcome.text
  | .error fault =>
    if isCallerFault fault then return "Error: " ++ (← Run.ofExcept fault.tell)
    else if fault.isA .osError then do
      let message ← Run.ofExcept fault.tell
      Run.note .error ("disassemble_class failed to read " ++ classPath ++ ": " ++ message)
      return "Error reading class file: " ++ message
    else throw fault

/-- How much of an unusable text is shown. -/
def shownCharacters : Nat := 32

/-- Disassembles a class given as base64. -/
def disassembleClassBytes (s : Service) (encoded : String) (name : String := "Class") :
    Run String := do
  match Text.base64Decode? encoded with
  | some data => s.disassembleText ⟨data, name⟩
  | none =>
    return (Diagnostic.parameterInvalid "class_bytes_b64"
      (.str (Text.take encoded shownCharacters)) "base64-encoded class file bytes").userMessage

/-! ## 2. Diagnosing -/

/-- A line of a report. -/
def item (name value : String) : String := "- " ++ name ++ ": " ++ value ++ "\n"

/-- A text set off in a report. -/
def code (s : String) : String := String.ofList ('\x60' :: s.toList ++ ['\x60'])

/-- The word for a truth value. -/
def yesNo (b : Bool) : String := if b then "yes" else "no"

/-- The lines about how the tool resolves. -/
def resolutionLines (r : Backend.Resolution) : List String :=
  [item "Resolved" (yesNo r.resolved)] ++
    (match r.command? with
      | some command =>
        if command.isEmpty then [] else [item "Command" (code (Text.join " " command))]
      | none => []) ++
    (match r.entryText? with
      | some text => if text = "" then [] else [item "Entry point" (code text)]
      | none => []) ++
    (match r.error? with
      | some message => if message = "" then [] else [item "Error" message]
      | none => [])

/-- The line about a setting. -/
def settingLine (status : Settings.Status) : String :=
  match status.found with
  | some (source, value) =>
    "- " ++ status.key ++ " = " ++ code value ++ " (" ++ source.text ++ ")\n"
  | none => item status.key "not set"

/-- The report on a service and the settings. -/
def diagnosisText (d : Service.Diagnosis) (settings : List Settings.Status) : String :=
  let configured := d.tool.toolRoot.isSome
  String.join <|
    ["**Disassembler Diagnostics: " ++ d.tool.label ++ " (" ++ d.tool.backend ++ ")**\n\n",
      item "Configured" (yesNo configured),
      item "Tool path" (code ((d.tool.toolRoot.map Path.text).getD "not set")),
      item "Arguments" (code (Text.join " " d.tool.arguments))] ++
    (d.tool.resolution.map resolutionLines).getD [] ++
    (match d.tool.version with
      | some version => [item "javap version" version]
      | none => []) ++
    [item "Temp dir" (code ((d.tempDirectory.map Path.text).getD "system default")),
      "\n**Configuration:**\n"] ++
    settings.map settingLine ++
    (if configured then []
      else ["\nSet JAVA_TOOLS to a JDK installation directory (or tools.jar) to enable " ++
        "disassembly.\n"])

/-- Reports how the disassembler is configured and resolved. -/
def diagnose (s : Service) : Run String := do
  let d ← s.diagnose
  return diagnosisText d (← Settings.status)

/-! ## 3. Recorded failures -/

/-- The number of failures that are summed up, whatever is asked for. -/
def clampCount (count : Int) : Int := max 1 (min count 100)

/-- Sums up the latest recorded failures. -/
def errors (s : Service) (count : Int := 10) : Run String := do
  match s.store with
  | none => return "Error recording is disabled."
  | some store => store.summary (clampCount count)

end Dissect.Functions
