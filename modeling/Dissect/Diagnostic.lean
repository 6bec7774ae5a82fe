/-
# Diagnostics

What a caller is told when a disassembly does not succeed: a code, a message, a reason, steps that
may help, and details for whoever looks into it.  A diagnostic has a text for people and a document
for programs.
-/
import Dissect.Value.Arithmetic
import Dissect.Value.Document

namespace Dissect

/-! ## 1. Codes -/

/-- What kind of trouble a diagnostic reports. -/
inductive ErrorCode where
  | toolNotConfigured
  | toolAccessDenied
  | disassemblyFailed
  | parameterInvalid
deriving DecidableEq, Repr

namespace ErrorCode

/-- The written form of a code. -/
def text : ErrorCode → String
  | .toolNotConfigured => "TOOL_NOT_CONFIGURED"
  | .toolAccessDenied => "TOOL_ACCESS_DENIED"
  | .disassemblyFailed => "DISASSEMBLY_FAILED"
  | .parameterInvalid => "PARAMETER_INVALID"

/-- All codes. -/
def all : List ErrorCode :=
  [.toolNotConfigured, .toolAccessDenied, .disassemblyFailed, .parameterInvalid]

/-- The code with a written form. -/
def ofText (s : String) : Except Fault ErrorCode :=
  match all.find? (·.text == s) with
  | some code => .ok code
  | none => .error (.ofText .valueError (Text.quote s ++ " is not a valid ErrorCode"))

theorem ofText_text (code : ErrorCode) : ofText code.text = .ok code := by
  cases code <;> rfl

end ErrorCode

/-! ## 2. Diagnostics -/

/-- A structured error. -/
structure Diagnostic where
  code : ErrorCode
  message : String
  reason : Option String := none
  suggestions : List String := []
  details : List (Value × Value) := []
deriving Repr

namespace Diagnostic

/-- The diagnostic as a dictionary. -/
def dictionary (d : Diagnostic) : Value :=
  .dict [(.str "error", .str d.code.text), (.str "message", .str d.message),
    (.str "reason", .ofText? d.reason), (.str "suggestions", .list (d.suggestions.map .str)),
    (.str "debug_info", .dict d.details)]

/-- The widest margin that there is room for. -/
def maxMargin : Int := Nat.pow 2 35

/-- The failure of making a margin, if it has one.  Its width must be a machine word, and a margin to
the left of the line is none. -/
def marginFault? (width : Int) : Option Fault :=
  if !Value.fitsWord width then
    some (.ofText .overflowError "cannot fit 'int' into an index-sized integer")
  else if maxMargin < width then some { kind := .memoryError }
  else none

/-- The diagnostic as JSON text.  The margin is made before anything is written. -/
def json (indent : Option Int) (d : Diagnostic) : Except Fault String := do
  match indent.bind marginFault? with
  | some fault => throw fault
  | none => return (← d.dictionary.document).text indent

/-- The suggestions, numbered from one. -/
def numbered (suggestions : List String) : List String :=
  suggestions.zipIdx 1 |>.map fun (suggestion, i) => "  " ++ toString i ++ ". " ++ suggestion

/-- The reason, if it says anything. -/
def reasonLines (d : Diagnostic) : List String :=
  match d.reason with
  | none => []
  | some reason => if reason = "" then [] else ["Reason: " ++ reason]

/-- The suggestions under their heading, if there are any. -/
def suggestionLines (d : Diagnostic) : List String :=
  if d.suggestions.isEmpty then [] else "\nSuggested actions:" :: numbered d.suggestions

/-- The details under their heading, if there are any. -/
def detailLines (d : Diagnostic) : List String :=
  if d.details.isEmpty then []
  else
    "\nDebug information:" ::
      d.details.map fun (key, value) => "  " ++ key.text ++ ": " ++ value.text

/-- The diagnostic as people read it. -/
def userMessage (d : Diagnostic) : String :=
  Text.join "\n" <|
    ["Error [" ++ d.code.text ++ "]: " ++ d.message] ++ d.reasonLines ++ d.suggestionLines ++
      d.detailLines

/-! ## 3. The diagnostics of this library -/

/-- Steps for a missing installation path. -/
def notConfiguredSuggestions : List String :=
  ["Set JAVA_TOOLS to a JDK installation directory (containing bin/javap)",
   "Alternatively point JAVA_TOOLS at a JDK 8 tools.jar",
   "Values can be placed in a .env file in the project root"]

/-- Steps for an installation that cannot be reached. -/
def accessDeniedSuggestions : List String :=
  ["Check that the configured tool path is readable by the current user",
   "Check that the javap executable has execute permission",
   "Run diagnose_disassembler() to see how the tool path was resolved"]

/-- Steps for a failed disassembly. -/
def failedSuggestions : List String :=
  ["Verify the input is a complete, valid .class file",
   "Check that the configured JDK is new enough for the class file version",
   "Run diagnose_disassembler() to verify the tool installation"]

/-- The setting that names the tool's installation. -/
def toolSetting : String := "JAVA_TOOLS"

/-- No installation path has been set under the given setting. -/
def toolNotConfigured (setting : String := toolSetting) : Diagnostic where
  code := .toolNotConfigured
  message := "Set Java Tools Path! (" ++ setting ++ " is not configured)"
  reason := some "No external disassembler installation has been configured"
  suggestions := notConfiguredSuggestions
  details := [(.str "config_key", .str setting)]

/-- The installation or its entry point cannot be reached. -/
def toolAccessDenied (toolRoot systemError : Option String) : Diagnostic where
  code := .toolAccessDenied
  message :=
    "Illegal access error: the disassembler could not be reached at the configured path"
  reason := some <|
    match systemError with
    | none => "Access to the tool installation was denied"
    | some text => if text = "" then "Access to the tool installation was denied" else text
  suggestions := accessDeniedSuggestions
  details := [(.str "tool_root", .ofText? toolRoot)]

/-- A run of the disassembler failed. -/
def disassemblyFailed (label className errorType errorMessage : String)
    (trace : Option String) : Diagnostic where
  code := .disassemblyFailed
  message := label ++ " failed to disassemble '" ++ className ++ "'"
  reason := some (if errorMessage = "" then errorType else errorType ++ ": " ++ errorMessage)
  suggestions := failedSuggestions
  details :=
    [(.str "backend", .str label), (.str "class_name", .str className),
     (.str "error_type", .str errorType)] ++
      match trace with
      | none => []
      | some text => if text = "" then [] else [(.str "traceback", .str text)]

/-- A caller's parameter has an unusable value. -/
def parameterInvalid (parameter : String) (provided : Value) (expected : String) :
    Diagnostic where
  code := .parameterInvalid
  message := "Invalid value for parameter '" ++ parameter ++ "'"
  reason := some ("Got '" ++ provided.text ++ "', expected " ++ expected)
  suggestions :=
    ["Provide a valid value for '" ++ parameter ++ "'", "Expected: " ++ expected]
  details :=
    [(.str "parameter", .str parameter), (.str "provided", provided),
     (.str "expected", .str expected)]

/-! ## 4. The block for a failed run -/

/-- The request that heads the block. -/
def reportNotice : String :=
  "Please report this error, including the stack trace below."

/-- The fix that the block suggests. -/
def fixNotice : String :=
  "Suggested Fix: reload the class and try again; if it fails again, " ++
    "try another disassembler backend."

/-- The text that a caller gets for a failed run: heading, notices and the detail. -/
def failureBlock (label detail : String) : String :=
  label ++ " Error! " ++ reportNotice ++ "\n\n" ++ fixNotice ++ "\n\n" ++ detail

end Diagnostic

end Dissect
