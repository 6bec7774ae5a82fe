/-
# Which failures come out

A disassembly answers with an outcome, and the functions offered to clients answer with a text,
whatever is asked of them.  There are two exceptions, and here they are told exactly
(`Service.entry_points_fail_iff`).

* **A request to stop passes through**, if it is one that tool code raised.
* **A failure that cannot be told comes out as the trouble with telling it.**  What is made of an
  ordinary failure shows its message, and the outcome of a failed run a report on it as well.
  Neither can always be had: the report fails on a failure about malformed source text whose details
  are of the wrong kind, and the message on one about a character before the first of a text, or
  with an argument that cannot be written (`Fault.Untold`).  Nothing catches that.

Everything else that goes wrong on the way is caught: every failure to make a path usable, to read
the file behind it or to decode a text is told to the caller, and every failure of the library's own
steps is an ordinary one and ends up in an outcome.
-/
import Dissect.Functions
import Dissect.Proofs.Endings

namespace Dissect

/-! ## 1. Failures that cannot be told -/

namespace Fault

/-- The failure cannot be told, for the given trouble: with a report on it, if it counts as a failed
run, or else with its message. -/
def Untold (fault trouble : Fault) : Prop :=
  (Classifier.kindOf fault.kind = .failure ∧ fault.report = .error trouble) ∨
    (Classifier.kindOf fault.kind = .failure → ∃ report, fault.report = .ok report) ∧
      fault.tell = .error trouble

/-- The trouble with telling is a trouble of telling. -/
theorem Untold.isTellingTrouble {fault trouble : Fault} (h : fault.Untold trouble) :
    trouble.IsTellingTrouble := by
  rcases h with ⟨-, hreport⟩ | ⟨-, htell⟩
  · exact report_troubles fault trouble hreport
  · exact tell_troubles fault trouble htell

/-- The failures that a report tells of, what came first being first. -/
def history : Fault → List Fault
  | ⟨kind, args, some cause, context, raised⟩ =>
    history cause ++ [⟨kind, args, some cause, context, raised⟩]
  | ⟨kind, args, none, some context, raised⟩ =>
    history context ++ [⟨kind, args, none, some context, raised⟩]
  | ⟨kind, args, none, none, raised⟩ => [⟨kind, args, none, none, raised⟩]

section Reports

variable {fault : Fault}

theorem place?_eq_none (h : fault.kind.isA .syntaxError = false) : fault.place? = none := by
  unfold place?
  rw [h]
  rfl

theorem demandLines_ok (h : fault.kind.isA .syntaxError = false) : fault.demandLines = .ok () := by
  rw [demandLines, place?_eq_none h]

theorem ownReport_ok (h : fault.kind.isA .syntaxError = false) :
    ∃ report, fault.ownReport = .ok report := by
  unfold ownReport shownPlace reportedMessage
  rw [place?_eq_none h, h]
  exact ⟨_, rfl⟩

end Reports

/-- Without malformed source text, there are no numbers of lines.  The induction is on the history. -/
theorem demandHistory_ok : ∀ fault : Fault,
    (∀ past ∈ fault.history, past.kind.isA .syntaxError = false) → fault.demandHistory = .ok ()
  | ⟨kind, args, some cause, context, raised⟩, h => by
    unfold history at h
    have hown := demandLines_ok (h _ (List.mem_append_right _ List.mem_cons_self))
    have ih := demandHistory_ok cause fun past hm => h past (List.mem_append_left _ hm)
    unfold demandHistory
    rw [hown]
    exact ih
  | ⟨kind, args, none, some context, raised⟩, h => by
    unfold history at h
    have hown := demandLines_ok (h _ (List.mem_append_right _ List.mem_cons_self))
    have ih := demandHistory_ok context fun past hm => h past (List.mem_append_left _ hm)
    unfold demandHistory
    rw [hown]
    exact ih
  | ⟨kind, args, none, none, raised⟩, h => by
    unfold history at h
    unfold demandHistory
    exact demandLines_ok (h _ List.mem_cons_self)

/-- Nor can the reports fail.  The induction is on the history. -/
theorem reports_ok : ∀ fault : Fault,
    (∀ past ∈ fault.history, past.kind.isA .syntaxError = false) →
      ∃ report, fault.reports = .ok report
  | ⟨kind, args, some cause, context, raised⟩, h => by
    unfold history at h
    obtain ⟨before, hbefore⟩ := reports_ok cause fun past hm => h past (List.mem_append_left _ hm)
    obtain ⟨own, hown⟩ := ownReport_ok (h _ (List.mem_append_right _ List.mem_cons_self))
    unfold reports
    rw [hbefore, hown]
    exact ⟨_, rfl⟩
  | ⟨kind, args, none, some context, raised⟩, h => by
    unfold history at h
    obtain ⟨before, hbefore⟩ := reports_ok context fun past hm =>
      h past (List.mem_append_left _ hm)
    obtain ⟨own, hown⟩ := ownReport_ok (h _ (List.mem_append_right _ List.mem_cons_self))
    unfold reports
    rw [hbefore, hown]
    exact ⟨_, rfl⟩
  | ⟨kind, args, none, none, raised⟩, h => by
    unfold history at h
    unfold reports
    exact ownReport_ok (h _ List.mem_cons_self)

/-- A report without malformed source text can be had. -/
theorem report_ok {fault : Fault}
    (h : ∀ past ∈ fault.history, past.kind.isA .syntaxError = false) :
    ∃ report, fault.report = .ok report := by
  unfold report
  rw [demandHistory_ok fault h]
  exact reports_ok fault h

/-! ### What a message shows -/

/-- The value that a part shows. -/
def Part.value? : Part → Option Value
  | .fixed _ => none
  | .plain v => some v
  | .quoted v => some v

/-- The part shows nothing, nothing given, one of the arguments, or all of them. -/
def Part.IsOf (args : List Value) (part : Part) : Prop :=
  ∀ v, part.value? = some v → v = .none ∨ v ∈ args ∨ v = .tuple args

theorem plainParts_of (args : List Value) : ∀ part ∈ plainParts args, part.IsOf args := by
  unfold plainParts
  split
  · nofun
  · simp [Part.IsOf, Part.value?]
  · simp [Part.IsOf, Part.value?]

theorem systemParts_of (args : List Value) : ∀ part ∈ systemParts args, part.IsOf args := by
  unfold systemParts
  simp only
  split
  case h_9 => exact plainParts_of args
  all_goals simp [Part.IsOf, Part.value?]

/-- A failure that tells its progress has two arguments before that. -/
theorem systemParts_of_progress {kind : FaultClass} {args : List Value}
    (h : tellsProgress kind args = true) :
    ∀ part ∈ systemParts (args.take 2), part.IsOf args := by
  rw [tellsProgress, Bool.and_eq_true] at h
  obtain _ | ⟨number, _ | ⟨text, _ | ⟨progress, rest⟩⟩⟩ := args
  · cases h.2
  · cases h.2
  · cases h.2
  · simp [systemParts, Part.IsOf, Part.value?]

theorem codecParts_of {args : List Value} {codec reason : Value} (hcodec : codec ∈ args)
    (hreason : reason ∈ args) (refusal stretch : String) :
    ∀ part ∈ codecParts codec refusal stretch reason, part.IsOf args := by
  simp [codecParts, Part.IsOf, Part.value?, hcodec, hreason]

/-- **What a message shows** is made of the arguments. -/
theorem parts_of (fault : Fault) : ∀ part ∈ fault.parts, part.IsOf fault.args := by
  obtain ⟨kind, args, cause, context, raised⟩ := fault
  unfold parts
  simp only
  split
  · simp [Part.IsOf, Part.value?]
  · simp [Part.IsOf, Part.value?]
  · simp [Part.IsOf, Part.value?]
  · simp [Part.IsOf, Part.value?]
  · unfold decodeParts
    split
    · split
      · exact codecParts_of (by simp) (by simp) _ _
      · exact plainParts_of _
    · exact plainParts_of _
  · unfold encodeParts
    split
    · split
      · exact codecParts_of (by simp) (by simp) _ _
      · exact plainParts_of _
    · exact plainParts_of _
  · unfold translateParts
    split
    · split
      · simp [Part.IsOf, Part.value?]
      · exact plainParts_of _
    · exact plainParts_of _
  · split
    · cases args <;> simp [Part.IsOf, Part.value?]
    split
    · rename_i hprogress
      exact systemParts_of_progress hprogress
    split
    · exact systemParts_of args
    · exact plainParts_of args

/-- Arguments that can be written, all of them together, keep no message from being told. -/
theorem obstacle?_of_args {fault : Fault}
    (h : (Value.tuple fault.args).obstacle? Value.maxLevels = none) :
    ∀ part ∈ fault.parts, part.obstacle? = none := by
  intro part hpart
  have hvalue : ∀ v, part.value? = some v → v.obstacle? Value.maxLevels = none := by
    intro v hv
    rcases parts_of fault part hpart v hv with rfl | hmem | rfl
    · rfl
    · have hitems := Value.itemsObstacle?_eq_none_iff_forall.mp
        (show Value.itemsObstacle? 979 fault.args = none from h)
      exact Value.obstacle?_eq_none_of_le (by decide) (hitems v hmem)
    · exact h
  cases part with
  | fixed s => rfl
  | plain v => exact hvalue v rfl
  | quoted v => exact hvalue v rfl

/-- **What cannot be told** has malformed source text in its history, or is itself a failure to
convert characters, or has arguments that cannot be written. -/
theorem Untold.kinds {fault trouble : Fault} (h : fault.Untold trouble) :
    (∃ past ∈ fault.history, past.kind.isA .syntaxError = true) ∨
      fault.kind = .unicodeEncodeError ∨ fault.kind = .unicodeTranslateError ∨
        (Value.tuple fault.args).demandWritten ≠ .ok () := by
  rcases h with ⟨-, hreport⟩ | ⟨-, htell⟩
  · refine .inl (Classical.byContradiction fun hno => ?_)
    obtain ⟨report, hok⟩ := report_ok fun past hm =>
      Bool.eq_false_iff.mpr fun hs => hno ⟨past, hm, hs⟩
    rw [hreport] at hok
    cases hok
  · refine .inr ?_
    by_cases hargs : (Value.tuple fault.args).demandWritten = .ok ()
    · cases hposition : fault.positionTrouble? with
      | none =>
        have htold := trouble?_eq_none_iff.mpr
          ⟨hposition, obstacle?_of_args (Value.demandWritten_ok_iff.mp hargs)⟩
        rw [tell_of_told htold] at htell
        cases htell
      | some other =>
        unfold positionTrouble? at hposition
        split at hposition
        · rename_i hencode _
          exact .inl hencode
        · rename_i htranslate _
          exact .inr (.inl htranslate)
        · cases hposition
    · exact .inr (.inr hargs)

end Fault

/-- **Classifying a failure fails exactly if it cannot be told**, unless nothing of it is shown. -/
theorem Classifier.classify_error_iff {c : Classifier} {fault trouble : Fault} {className : String}
    {toolRoot : Option Path} {captured : String} :
    c.classify fault className toolRoot captured = .error trouble ↔
      kindOf fault.kind ≠ .toolNotConfigured ∧ fault.Untold trouble := by
  unfold classify Fault.Untold
  cases hk : kindOf fault.kind with
  | success => exact absurd hk (kindOf_ne_success fault.kind)
  | toolNotConfigured => exact iff_of_false nofun fun h => h.1 rfl
  | permissionDenied =>
    cases htell : fault.tell <;> simp [bind, Except.bind, pure, Except.pure]
  | failure =>
    unfold failed trace
    cases hreport : fault.report with
    | error first => simp [bind, Except.bind]
    | ok report => cases htell : fault.tell <;> simp [bind, Except.bind, pure, Except.pure]

/-- **Nothing comes of a failure exactly if it cannot be told.** -/
theorem Service.handled_error_iff {s : Service} {unit : ClassUnit} {root : Path} {captured : String}
    {fault trouble : Fault} :
    s.handled unit root captured fault = .error trouble ↔ fault.Untold trouble := by
  by_cases hk : Classifier.kindOf fault.kind = .toolNotConfigured
  · have hclassify : s.classifier.classify fault unit.name (some root) captured =
        .ok s.classifier.notConfigured := by
      unfold Classifier.classify
      rw [hk]
    unfold handled Fault.Untold
    rw [hclassify, hk]
    cases htell : fault.tell <;> simp [bind, Except.bind, pure, Except.pure]
  · rw [handled_eq_classify hk, Classifier.classify_error_iff, and_iff_right hk]

/-! ## 2. Disassembling a class -/

/-- A failure that stops the loading of the tool's modules is what the run ends in, unless it is
about a module or about access, or a stop of iteration. -/
theorem Invocation.invoke_of_loadingStops {b : Backend} {root resource : Path} {host : Host}
    {fault : Fault} (h : b.LoadingStops root host fault)
    (haccess : ¬ fault.isA .permissionError = true) (himport : ¬ fault.isA .importError = true)
    (hstop : ¬ fault.kind.isA .stopIteration = true) :
    ((invoke b root resource).exec host).1 = .error fault := by
  unfold Backend.LoadingStops at h
  rw [invoke_eq]
  cases hb : b.engine with
  | javap =>
    rw [hb] at h
    exact False.elim h
  | module entry entryText =>
    rw [hb] at h
    obtain ⟨base, loaded, hbase, hfound, hload, hres⟩ := h
    have hopened : ModuleTools.isFound ⟨root, entry, entryText⟩
        (ModuleTools.openedHost ⟨root, entry, entryText⟩ base host).disk base = true := hfound
    have hwithin : (ModuleTools.within ⟨root, entry, entryText⟩ base fun call =>
        watched b.signals (do let _ ← call (b.argumentsFor resource))).exec
          (ModuleTools.openedHost ⟨root, entry, entryText⟩ base host) = (.error fault, loaded) := by
      refine ModuleTools.within_exec_error ?_
      rw [ModuleTools.enter_exec, if_pos hopened, hload]
      simp only [ModuleTools.importFault, if_neg haccess, if_neg himport, Fault.outOfGenerator,
        if_neg hstop]
    rw [Backend.withEntry_module hb, ModuleTools.withEntry_exec hbase, Run.exec_followedBy_result,
      hwithin]
    rcases ModuleTools.close_result ⟨root, entry, entryText⟩ base host.modules loaded with
      ⟨hok, -⟩ | ⟨trouble, -, -, hno⟩
    · simp only [hok]
    · exact absurd hres hno

namespace Service

variable {s : Service} {unit : ClassUnit} {root : Path} {host : Host}

/-- How a run ends, from making the class file on. -/
def ending (s : Service) (unit : ClassUnit) (root : Path) (host : Host) : Except Fault Unit :=
  match s.makeFile unit host with
  | (.error fault, _) => .error fault
  | (.ok resource, made) =>
    ((Invocation.invoke s.backend root resource.path).exec (toolStart made)).1

/-- Tool code raised a request to stop: while its modules were loaded, or while its entry point was
called, where a request to exit does not count. -/
structure ToolStops (s : Service) (unit : ClassUnit) (root : Path) (host : Host) (fault : Fault) :
    Prop where
  stop : ¬ fault.IsOrdinary
  raised : ∃ resource made, s.makeFile unit host = (.ok resource, made) ∧
    (s.backend.LoadingStops root (toolStart made) fault ∨
      fault.isA .systemExit = false ∧ ∃ ended,
        s.backend.CallEnds root (s.backend.argumentsFor resource.path) (toolStart made)
          (.error fault) ended)

/-- The verdict is an ordinary failure exactly if the run ended in one that cannot be told. -/
theorem verdict_ordinary_iff {finished : Finished} {fault : Fault} (h : fault.IsOrdinary) :
    s.verdict unit root finished = .error fault ↔
      ∃ trouble, finished.ending = .error trouble ∧ trouble.IsOrdinary ∧
        trouble.Untold fault := by
  unfold verdict
  cases finished.ending with
  | ok _ => exact ⟨fun he => (by cases he), fun ⟨_, he, _⟩ => (by cases he)⟩
  | error trouble =>
    simp only
    split
    · rename_i hordinary
      rw [handled_error_iff]
      constructor
      · exact fun hfails => ⟨trouble, rfl, hordinary, hfails⟩
      · rintro ⟨_, he, -, hfails⟩
        cases he
        exact hfails
    · rename_i hno
      refine ⟨fun he => ?_, fun ⟨_, he, hordinary, _⟩ => ?_⟩
      · cases he
        exact absurd h hno
      · cases he
        exact absurd hordinary hno

/-- An ordinary failure comes out of a disassembly exactly if the run ended in one that cannot be
told. -/
theorem disassemble_ordinary_iff {fault : Fault} (h : fault.IsOrdinary)
    (hroot : s.configuration.toolPath = some root) (hinvoker : s.invoker = Invocation.invoke) :
    ((s.disassemble unit).exec host).1 = .error fault ↔
      ∃ trouble, s.ending unit root host = .error trouble ∧ trouble.IsOrdinary ∧
        trouble.Untold fault := by
  rw [disassemble_result hroot, verdict_ordinary_iff h]
  unfold ending
  rw [← hinvoker]
  cases s.makeFile unit host with
  | mk result made => cases result <;> rfl

/-- **Which failures come out of a disassembly.** -/
theorem disassemble_error_iff {fault : Fault} (hroot : s.configuration.toolPath = some root)
    (hinvoker : s.invoker = Invocation.invoke)
    (hopen : ∀ trouble, host.openFault = some trouble → trouble.IsOrdinary) :
    ((s.disassemble unit).exec host).1 = .error fault ↔
      s.ToolStops unit root host fault ∨
        ∃ trouble, s.ending unit root host = .error trouble ∧ trouble.IsOrdinary ∧
          trouble.Untold fault := by
  by_cases h : fault.IsOrdinary
  · rw [or_iff_right fun hstops => hstops.stop h, disassemble_ordinary_iff h hroot hinvoker]
  · rw [or_iff_left fun ⟨_, _, _, huntold⟩ => h huntold.isTellingTrouble.isOwn.ordinary,
      stop_iff_invoke hroot hinvoker hopen h]
    constructor
    · rintro ⟨resource, made, hmake, hends⟩
      exact ⟨h, resource, made, hmake, (Invocation.invoke_stop_iff h).mp hends⟩
    · rintro ⟨-, resource, made, hmake, hraised⟩
      exact ⟨resource, made, hmake, (Invocation.invoke_stop_iff h).mpr hraised⟩

end Service

/-! ## 3. The functions offered to clients -/

namespace Functions

/-- The failure is told to the caller. -/
def isTold (fault : Fault) : Bool := isCallerFault fault || fault.isA .osError

end Functions

open Functions (isTold)

/-- A failure that is told is an ordinary one. -/
theorem Fault.IsOrdinary.of_isTold {fault : Fault} (h : isTold fault = true) :
    fault.IsOrdinary := by
  simp only [isTold, Functions.isCallerFault, Bool.or_eq_true] at h
  rcases h with (((h | h) | h) | h) | h
  all_goals exact .of_isA rfl h

/-- The failure is told to the caller, and it can be. -/
def Functions.IsAnswered (fault : Fault) : Prop := isTold fault = true ∧ fault.trouble? = none

open Functions (IsAnswered)

theorem Functions.answered_errno (e : Files.Errno) (file : String) : IsAnswered (e.fault file) :=
  ⟨by cases e <;> rfl, (FailsOwn.errno e file).told⟩

/-- The only failures to ask about a path are errors of the operating system. -/
theorem Files.Disk.check_answered {disk : Files.Disk} {path : Path} {property : Files.Node → Bool}
    {fault : Fault} (h : disk.check path property = .error fault) : IsAnswered fault := by
  obtain ⟨e, rfl⟩ := check_error h
  exact Functions.answered_errno e path.text

/-- A path that cannot be resolved is the caller's to mend. -/
theorem Access.unresolved_answered {disk : Files.Disk} {path : Path} {fault : Fault}
    (h : disk.resolve path = .error fault) : IsAnswered (unresolved fault) := by
  unfold unresolved
  split
  · exact ⟨rfl, ((Fault.IsOwn.ofText rfl _).whileHandling _).told⟩
  · rename_i hno
    rcases ModuleTools.resolve_error h with hvalue | ⟨real, rfl⟩
    · exact ⟨by simp [isTold, Functions.isCallerFault, hvalue], (disk.resolve_fails path _ h).told⟩
    · exact absurd rfl hno

theorem Access.fileSize_answered {disk : Files.Disk} {path : Path} {fault : Fault}
    (h : fileSize disk path = .error fault) : IsAnswered fault := by
  unfold fileSize at h
  split at h <;> cases h
  exact ⟨rfl, Fault.trouble?_ofText _ _⟩

/-- **Every failure to make a path usable is told.**  There is one case for each step that can
fail. -/
theorem Access.sanitize_answered {disk : Files.Disk} {classPath : String} {allowed : List Path}
    {maxSize : Int} {fault : Fault}
    (h : sanitize disk classPath allowed maxSize = .error fault) : IsAnswered fault := by
  unfold sanitize at h
  rcases error_of_bind h with hresolve | ⟨path, -, h⟩
  · cases hr : disk.resolve (Path.ofText classPath) with
    | error trouble =>
      rw [hr] at hresolve
      cases hresolve
      exact unresolved_answered hr
    | ok path =>
      rw [hr] at hresolve
      cases hresolve
  rcases error_of_bind h with hexists | ⟨_, -, h⟩
  · exact Files.Disk.check_answered hexists
  simp only at h
  split at h
  · cases h
    exact ⟨rfl, Fault.trouble?_ofText _ _⟩
  rcases error_of_bind h with hfile | ⟨_, -, h⟩
  · exact Files.Disk.check_answered hfile
  split at h
  · cases h
    exact ⟨rfl, Fault.trouble?_ofText _ _⟩
  split at h
  · cases h
    exact ⟨rfl, Fault.trouble?_ofText _ _⟩
  rcases error_of_bind h with hsize | ⟨_, -, h⟩
  · exact fileSize_answered hsize
  split at h <;> cases h
  exact ⟨rfl, Fault.trouble?_ofText _ _⟩

/-- A failure that comes out of a disassembly can be told, if it is one that would be. -/
theorem Service.answered_of_disassemble {s : Service} {unit : ClassUnit} {host : Host}
    {fault : Fault} (h : ((s.disassemble unit).exec host).1 = .error fault)
    (htold : isTold fault = true) : IsAnswered fault := by
  cases hroot : s.configuration.toolPath with
  | none =>
    unfold disassemble at h
    rw [hroot] at h
    cases h
  | some root =>
    rw [disassemble_result hroot] at h
    exact ⟨htold, (verdict_own (.of_isTold htold) h).told⟩

/-- The text of a disassembly fails as the disassembly does. -/
theorem Service.disassembleText_error_iff (s : Service) {unit : ClassUnit} {host : Host}
    {fault : Fault} :
    ((s.disassembleText unit).exec host).1 = .error fault ↔
      ((s.disassemble unit).exec host).1 = .error fault := by
  unfold disassembleText
  rw [Run.exec_bind]
  cases (s.disassemble unit).exec host with
  | mk result after =>
    cases result with
    | ok outcome => exact ⟨fun h => (by cases h), fun h => (by cases h)⟩
    | error trouble => exact ⟨fun h => (by cases h; rfl), fun h => (by cases h; rfl)⟩

/-- Disassembling the class file at a path: the path is made usable, the file read, and the class
disassembled. -/
theorem Service.disassembleFile_exec (s : Service) (classPath : String) (host : Host) :
    (s.disassembleFile classPath).exec host =
      match Access.sanitize host.disk classPath with
      | .error fault => (.error fault, host)
      | .ok path =>
        match host.disk.read path.text with
        | .error e => (.error (e.fault path.text), host)
        | .ok data => (s.disassemble ⟨data, path.stem⟩).exec host := by
  have hsanitize := Run.exec_query (fun host : Host => Access.sanitize host.disk classPath) host
  unfold disassembleFile
  cases hs : Access.sanitize host.disk classPath with
  | error fault =>
    rw [hs] at hsanitize
    exact Run.exec_bind_error hsanitize
  | ok path =>
    rw [hs] at hsanitize
    have hread := Run.exec_query
      (fun host : Host => Files.Errno.name path.text (host.disk.read path.text)) host
    rw [Run.exec_bind_ok hsanitize]
    simp only
    cases hr : host.disk.read path.text with
    | error e =>
      rw [hr] at hread
      exact Run.exec_bind_error hread
    | ok data =>
      rw [hr] at hread
      exact Run.exec_bind_ok hread

namespace Functions

variable {s : Service} {host : Host} {fault : Fault}

/-- What is told to the caller does not come out, since it can be told. -/
theorem disassembleClass_untold (s : Service) (classPath : String) (host : Host)
    (hanswered : ∀ fault, ((s.disassembleFile classPath).exec host).1 = .error fault →
      isTold fault = true → IsAnswered fault) (fault : Fault) :
    ((disassembleClass s classPath).exec host).1 = .error fault ↔
      ((s.disassembleFile classPath).exec host).1 = .error fault ∧ isTold fault = false := by
  unfold disassembleClass
  rw [Run.exec_bind_ok (Run.exec_attempt _ host)]
  cases hfile : ((s.disassembleFile classPath).exec host).1 with
  | ok outcome => exact ⟨fun h => (by cases h), fun h => (by cases h.1)⟩
  | error trouble =>
    simp only
    cases htold : isTold trouble with
    | true =>
      have htell := Fault.tell_of_told (hanswered trouble hfile htold).2
      rw [htell]
      refine iff_of_false (fun h => ?_) fun ⟨h, hno⟩ => ?_
      · split at h
        · cases h
        · split at h
          · cases h
          · rename_i hcaller hsystem
            simp [isTold, hcaller, hsystem] at htold
      · cases h
        rw [htold] at hno
        cases hno
    | false =>
      obtain ⟨hcaller, hsystem⟩ := Bool.or_eq_false_iff.mp htold
      simp only [hcaller, hsystem, Bool.false_eq_true, if_false]
      refine ⟨fun h => ?_, fun ⟨h, _⟩ => (by cases h; rfl)⟩
      cases h
      exact ⟨rfl, htold⟩

/-- Whatever is told of disassembling a file can be. -/
theorem answered_of_disassembleFile (s : Service) (classPath : String) (host : Host)
    (h : ((s.disassembleFile classPath).exec host).1 = .error fault) (htold : isTold fault = true) :
    IsAnswered fault := by
  rw [s.disassembleFile_exec] at h
  cases hs : Access.sanitize host.disk classPath with
  | error trouble =>
    rw [hs] at h
    cases h
    exact Access.sanitize_answered hs
  | ok path =>
    simp only [hs] at h
    cases hr : host.disk.read path.text with
    | error e =>
      rw [hr] at h
      cases h
      exact answered_errno e path.text
    | ok data =>
      rw [hr] at h
      exact Service.answered_of_disassemble h htold

/-- **A failure comes out of disassembling a file exactly if the file could be read, it came out of
the disassembly, and it is not told to the caller.** -/
theorem disassembleClass_error_iff (s : Service) (classPath : String) (host : Host)
    (fault : Fault) :
    ((disassembleClass s classPath).exec host).1 = .error fault ↔
      ∃ path data, Access.sanitize host.disk classPath = .ok path ∧
        host.disk.read path.text = .ok data ∧
        ((s.disassemble ⟨data, path.stem⟩).exec host).1 = .error fault ∧ isTold fault = false := by
  rw [disassembleClass_untold s classPath host fun _ =>
    answered_of_disassembleFile s classPath host, s.disassembleFile_exec]
  cases hs : Access.sanitize host.disk classPath with
  | error trouble =>
    refine ⟨fun ⟨h, hno⟩ => ?_, fun ⟨_, _, h, _⟩ => (by cases h)⟩
    cases h
    rw [(Access.sanitize_answered hs).1] at hno
    cases hno
  | ok path =>
    simp only
    cases hr : host.disk.read path.text with
    | error e =>
      refine ⟨fun ⟨h, hno⟩ => ?_, fun ⟨_, _, hpath, h, _⟩ => ?_⟩
      · cases h
        rw [(answered_errno e path.text).1] at hno
        cases hno
      · cases hpath
        rw [hr] at h
        cases h
    | ok data =>
      constructor
      · rintro ⟨h, hno⟩
        exact ⟨path, data, rfl, hr, h, hno⟩
      · rintro ⟨_, _, hpath, h, hfails, hno⟩
        cases hpath
        rw [hr] at h
        cases h
        exact ⟨hfails, hno⟩

/-- A failure comes out of disassembling bytes exactly if the text could be decoded, and it came out
of the disassembly. -/
theorem disassembleClassBytes_error_iff (s : Service) (encoded name : String) (host : Host)
    (fault : Fault) :
    ((disassembleClassBytes s encoded name).exec host).1 = .error fault ↔
      ∃ data, Text.base64Decode? encoded = some data ∧
        ((s.disassemble ⟨data, name⟩).exec host).1 = .error fault := by
  unfold disassembleClassBytes
  cases Text.base64Decode? encoded with
  | none => exact ⟨fun h => (by cases h), fun ⟨_, h, _⟩ => (by cases h)⟩
  | some data =>
    simp only [s.disassembleText_error_iff, Option.some.injEq, exists_eq_left']

end Functions

/-! ## 4. The entry points -/

namespace Service

/-- **Which failures come out.**  Where no tool is configured a disassembly always has an outcome.
Otherwise it fails in two cases only: tool code raised a request to stop, or the run ended in an
ordinary failure that cannot be told.  The latter has malformed source text in its history, or is
one to convert characters, or has arguments that cannot be written; what comes out in its stead is
ordinary and can be told.  The functions offered to clients fail only as the disassembly does that
they ask for: on a file that is usable and can be read, unless the failure is one that they tell,
and on a text that is base64. -/
theorem entry_points_fail_iff (s : Service) (host : Host) (hinvoker : s.invoker = Invocation.invoke)
    (hopen : ∀ fault, host.openFault = some fault → fault.IsOrdinary) :
    (∀ unit, s.configuration.toolPath = none →
      ((s.disassemble unit).exec host).1 = .ok s.classifier.notConfigured) ∧
    (∀ unit root fault, s.configuration.toolPath = some root →
      (((s.disassemble unit).exec host).1 = .error fault ↔
        s.ToolStops unit root host fault ∨
          ∃ trouble, s.ending unit root host = .error trouble ∧ trouble.IsOrdinary ∧
            trouble.Untold fault)) ∧
    (∀ trouble fault : Fault, trouble.Untold fault → fault.IsOwn ∧
      ((∃ past ∈ trouble.history, past.kind.isA .syntaxError = true) ∨
        trouble.kind = .unicodeEncodeError ∨ trouble.kind = .unicodeTranslateError ∨
        (Value.tuple trouble.args).demandWritten ≠ .ok ())) ∧
    (∀ classPath fault, ((Functions.disassembleClass s classPath).exec host).1 = .error fault ↔
      ∃ path data, Access.sanitize host.disk classPath = .ok path ∧
        host.disk.read path.text = .ok data ∧
        ((s.disassemble ⟨data, path.stem⟩).exec host).1 = .error fault ∧ isTold fault = false) ∧
    ∀ encoded name fault,
      ((Functions.disassembleClassBytes s encoded name).exec host).1 = .error fault ↔
        ∃ data, Text.base64Decode? encoded = some data ∧
          ((s.disassemble ⟨data, name⟩).exec host).1 = .error fault := by
  refine ⟨fun unit hroot => ?_, fun unit root fault hroot => ?_,
    fun trouble fault h => ⟨h.isTellingTrouble.isOwn, h.kinds⟩, fun classPath fault => ?_,
    fun encoded name fault => ?_⟩
  · unfold disassemble
    rw [hroot]
    rfl
  · exact disassemble_error_iff hroot hinvoker hopen
  · exact Functions.disassembleClass_error_iff s classPath host fault
  · exact Functions.disassembleClassBytes_error_iff s encoded name host fault

/-- What a step ended in is a failure about malformed source text whose report fails. -/
def isUnreportable {α : Type} : Except Fault α → Bool
  | .error fault => fault.kind == .syntaxError && fault.report.toOption.isNone
  | .ok _ => false

/-- A tool whose module raises, while it is loaded, a failure about malformed source text that gives
a number for the text. -/
theorem disassemble_fails_on_malformed_place :
    let s : Service := {
      backend := { engine := .module ⟨"javap", "main"⟩ "javap:main", label := "Tool",
                   arguments := [] }
      configuration := { toolPath := some ⟨.root, []⟩, tempDirectory := some ⟨.root, []⟩ } }
    let failure : Fault :=
      { kind := .syntaxError,
        args := [.str "bad", .tuple [.str "f", .int 1, .int 1, .int 5]] }
    let host : Host := {
      disk := { tree := ⟨[(["javap.py"],
        .file (.script { onLoad := [.raise failure] }) 0o644)]⟩ } }
    ∃ fault, fault.IsOrdinary ∧ ((s.disassemble ⟨[], "Foo"⟩).exec host).1 = .error fault := by
  intro s failure host
  obtain ⟨resource, made, trouble, hmake, hload, hstops⟩ :
      ∃ resource made trouble, s.makeFile ⟨[], "Foo"⟩ host = (.ok resource, made) ∧
        isUnreportable (.error trouble : Except Fault Unit) = true ∧
        s.backend.LoadingStops ⟨.root, []⟩ (toolStart made) trouble :=
    loadingStops_of_passes rfl (fun _ => rfl) (by decide +kernel)
  obtain ⟨hkind, hreport⟩ := Bool.and_eq_true_iff.mp hload
  have hkind : trouble.kind = .syntaxError := beq_iff_eq.mp hkind
  have hending : s.ending ⟨[], "Foo"⟩ ⟨.root, []⟩ host = .error trouble := by
    unfold ending
    rw [hmake]
    exact Invocation.invoke_of_loadingStops hstops (by rw [Fault.isA, hkind]; decide)
      (by rw [Fault.isA, hkind]; decide) (by rw [hkind]; decide)
  cases hfault : trouble.report with
  | ok trace =>
    rw [hfault] at hreport
    cases hreport
  | error fault =>
    have huntold : trouble.Untold fault := .inl ⟨by rw [hkind]; rfl, hfault⟩
    obtain ⟨-, hfails, -⟩ := entry_points_fail_iff s host rfl (by intro fault hf; cases hf)
    refine ⟨fault, huntold.isTellingTrouble.isOwn.ordinary,
      (hfails ⟨[], "Foo"⟩ ⟨.root, []⟩ fault rfl).mpr (.inr ⟨trouble, hending, ?_, huntold⟩)⟩
    rw [Fault.IsOrdinary, hkind]
    rfl

end Service

end Dissect
