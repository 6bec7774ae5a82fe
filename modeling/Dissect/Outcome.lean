/-
# Class units and outcomes

What goes into a disassembly, the bytes of one class under a display name, and what comes out: one
of four kinds of result with its text.
-/
import Dissect.Diagnostic

namespace Dissect

open Text (Bytes)

/-! ## 1. Class units -/

/-- The bytes of one compiled class.  The name is only shown, never interpreted. -/
structure ClassUnit where
  data : Bytes
  name : String := "Class"
deriving DecidableEq, Repr

/-- The class unit of a dynamic value: any kind of byte string will do. -/
def ClassUnit.ofValue (data : Value) (name : String) : Except Fault ClassUnit :=
  match data with
  | .bytes data => .ok ⟨data, name⟩
  | .buffer data => .ok ⟨data, name⟩
  | .view data => .ok ⟨data, name⟩
  | other => .error (.ofText .typeError ("Class data must be bytes, got " ++ other.kind))

/-! ## 2. Outcomes -/

/-- The kinds of outcome. -/
inductive OutcomeKind where
  | success
  | toolNotConfigured
  | permissionDenied
  | failure
deriving DecidableEq, Repr

namespace OutcomeKind

/-- The written form of a kind. -/
def text : OutcomeKind → String
  | .success => "success"
  | .toolNotConfigured => "tool_not_configured"
  | .permissionDenied => "permission_denied"
  | .failure => "failure"

/-- All kinds. -/
def all : List OutcomeKind := [.success, .toolNotConfigured, .permissionDenied, .failure]

/-- The kind with a written form. -/
def ofText (s : String) : Except Fault OutcomeKind :=
  match all.find? (·.text == s) with
  | some kind => .ok kind
  | none => .error (.ofText .valueError (Text.quote s ++ " is not a valid ResultKind"))

theorem ofText_text (kind : OutcomeKind) : ofText kind.text = .ok kind := by
  cases kind <;> rfl

end OutcomeKind

/-- The outcome of a disassembly: the tool's output on success, otherwise the text of a diagnostic
and the diagnostic itself. -/
structure Outcome where
  kind : OutcomeKind
  text : String
  diagnostic : Option Diagnostic := none
deriving Repr

namespace Outcome

/-- The outcome of a run that succeeded. -/
def success (text : String) : Outcome := { kind := .success, text }

/-- The run succeeded. -/
def ok (outcome : Outcome) : Bool := outcome.kind == .success

theorem ok_iff {outcome : Outcome} : outcome.ok = true ↔ outcome.kind = .success := by
  simp [ok]

end Outcome

end Dissect
