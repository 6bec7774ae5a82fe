/-
# Classification of failures

Every failure of a disassembly has exactly one kind of outcome, and the failure's class alone
decides which: no history, no message and no output of the tool has a say.  There is no outcome only
of a failure that cannot be told.
-/
import Dissect.Fault.Report
import Dissect.Outcome
import Dissect.Text.Blank

namespace Dissect

/-- What diagnostics say about the backend: its display label, its name and the setting that
configures it. -/
structure Classifier where
  label : String
  backend : String
  setting : String := Diagnostic.toolSetting
deriving DecidableEq, Repr

namespace Classifier

/-- The kind of outcome that a class of failures leads to. -/
def kindOf (kind : FaultClass) : OutcomeKind :=
  if kind.isA .toolNotConfiguredError then .toolNotConfigured
  else if kind.isA .toolAccessError || kind.isA .permissionError then .permissionDenied
  else .failure

/-- The outcome when no installation is configured. -/
def notConfigured (c : Classifier) : Outcome :=
  let diagnostic := Diagnostic.toolNotConfigured c.setting
  { kind := .toolNotConfigured, text := diagnostic.message, diagnostic := some diagnostic }

/-- The outcome when access to the installation is denied, with the message of the denial. -/
def accessDenied (message : String) (toolRoot : Option Path) : Outcome :=
  let diagnostic := Diagnostic.toolAccessDenied (toolRoot.map Path.text) (some message)
  { kind := .permissionDenied, text := diagnostic.message, diagnostic := some diagnostic }

/-- The report on a failure as a diagnostic shows it. -/
def trace (fault : Fault) : Except Fault String := return Text.stripEnd (← fault.report)

/-- The paragraphs of a failure's detail: the class, the report and the tool's output.  What is
empty or blank has no paragraph. -/
def detailParagraphs (className trace captured : String) : List String :=
  (if className = "" then [] else ["Class: " ++ className]) ++
    (if trace = "" then [] else [trace]) ++
    (if Text.allBlank captured then [] else ["Tool output:\n" ++ Text.stripEnd captured])

/-- The detail of a failure. -/
def detail (className trace captured : String) : String :=
  Text.join "\n\n" (detailParagraphs className trace captured)

/-- The outcome when the run failed for any other reason, with a report and a message. -/
def failedWith (c : Classifier) (fault : Fault) (className captured trace message : String) :
    Outcome :=
  let diagnostic :=
    Diagnostic.disassemblyFailed c.label className fault.name message (some trace)
  { kind := .failure,
    text := Diagnostic.failureBlock c.label (detail className trace captured),
    diagnostic := some diagnostic }

/-- The outcome when the run failed for any other reason, if the failure can be told. -/
def failed (c : Classifier) (fault : Fault) (className captured : String) :
    Except Fault Outcome := do
  let trace ← trace fault
  return c.failedWith fault className captured trace (← fault.tell)

/-- The outcome of a failure, if what it shows of the failure can be told. -/
def classify (c : Classifier) (fault : Fault) (className : String) (toolRoot : Option Path)
    (captured : String) : Except Fault Outcome :=
  match kindOf fault.kind with
  | .toolNotConfigured => .ok c.notConfigured
  | .permissionDenied => return accessDenied (← fault.tell) toolRoot
  | _ => c.failed fault className captured

/-- A failure never counts as a success. -/
theorem kindOf_ne_success (kind : FaultClass) : kindOf kind ≠ .success := by
  unfold kindOf
  split
  · simp
  · split <;> simp

variable {c : Classifier} {fault : Fault} {className captured : String} {toolRoot : Option Path}
  {outcome : Outcome}

/-- An outcome of a failed run is made of the failure's report and its message. -/
theorem failed_ok (h : c.failed fault className captured = .ok outcome) :
    ∃ report message, fault.report = .ok report ∧ fault.tell = .ok message ∧
      outcome = c.failedWith fault className captured (Text.stripEnd report) message := by
  unfold failed trace at h
  cases hreport : fault.report with
  | error trouble => rw [hreport] at h; cases h
  | ok report =>
    cases htell : fault.tell with
    | error trouble => rw [hreport, htell] at h; cases h
    | ok message =>
      rw [hreport, htell] at h
      cases h
      exact ⟨report, message, rfl, rfl, rfl⟩

theorem failed_kind (h : c.failed fault className captured = .ok outcome) :
    outcome.kind = .failure := by
  obtain ⟨_, _, -, -, rfl⟩ := failed_ok h
  rfl

/-- The outcomes of a failure, by the kind that its class has. -/
theorem classify_ok (h : c.classify fault className toolRoot captured = .ok outcome) :
    (kindOf fault.kind = .toolNotConfigured ∧ outcome = c.notConfigured) ∨
      (kindOf fault.kind = .permissionDenied ∧
        ∃ message, fault.tell = .ok message ∧ outcome = accessDenied message toolRoot) ∨
      (kindOf fault.kind = .failure ∧ c.failed fault className captured = .ok outcome) := by
  unfold classify at h
  cases hk : kindOf fault.kind with
  | success => exact absurd hk (kindOf_ne_success _)
  | toolNotConfigured =>
    rw [hk] at h
    exact .inl ⟨rfl, (Except.ok.inj h).symm⟩
  | permissionDenied =>
    rw [hk] at h
    cases htell : fault.tell with
    | error trouble => rw [htell] at h; cases h
    | ok message =>
      rw [htell] at h
      exact .inr (.inl ⟨rfl, message, rfl, (Except.ok.inj h).symm⟩)
  | failure =>
    rw [hk] at h
    exact .inr (.inr ⟨rfl, h⟩)

/-- The class of a failure decides the kind of its outcome. -/
theorem classify_kind (h : c.classify fault className toolRoot captured = .ok outcome) :
    outcome.kind = kindOf fault.kind := by
  rcases classify_ok h with ⟨hk, rfl⟩ | ⟨hk, _, -, rfl⟩ | ⟨hk, hfailed⟩
  · exact hk.symm
  · exact hk.symm
  · exact (failed_kind hfailed).trans hk.symm

end Classifier

end Dissect
