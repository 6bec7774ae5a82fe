/-
# What a failed disassembly tells

A disassembly that fails tells everything that is known: the class, the report on the failure, and all
that the tool wrote before, also while it was being loaded.  What the tool writes can be told from its
code, or from what its process leaves, without regard to the capture (`Backend.texts`); the capture is
over when the failure is handled, and still gives exactly these texts (`Service.captured_comesTo`).

The text of the outcome, its diagnostic and the record are made separately, each from the failure and
the captured text.  They agree (`Service.failure_loses_nothing`): the text ends with the captured text
if there is anything to be seen in it, the diagnostic holds the same report, and the record holds all of
the captured text, blanks included.
-/
import Dissect.Proofs.CaughtFailures
import Dissect.Proofs.KeptRecords
import Dissect.Proofs.ProgramRuns
import Dissect.Proofs.ToolOutput
import Mathlib.Data.List.TakeWhile

namespace Dissect

open ErrorStore (Accepted Stored Usable describes fileBytes idOf nodeAt recordName recordOf)
open Files (Location)

/-! ## 1. What a tool writes -/

/-- What the process of javap leaves that is started under a root with arguments. -/
def JavaTools.process (tools : JavaTools) (arguments : List String) (host : Host) :
    Except Fault ProcessResult := do
  let command ← tools.command host
  let environment ← tools.environment host
  Command.run host.disk environment (command ++ arguments)

/-- The texts that a process leaves. -/
def Command.leftTexts : Except Fault ProcessResult → List String
  | .ok left => [streamText left.stdout, streamText left.stderr]
  | .error _ => []

/-- What the tool of a backend writes when it is run on a class file. -/
def Backend.texts (b : Backend) (root resource : Path) (host : Host) : List String :=
  match b.engine with
  | .javap =>
    Command.leftTexts (({ root } : JavaTools).process (b.argumentsFor resource) host)
  | .module entry entryText =>
    let tools : ModuleTools := { root, entry, entryText }
    match tools.checkedRoot host.disk with
    | .ok base => tools.runTexts base (b.argumentsFor resource) (tools.openedHost base host)
    | .error _ => []

theorem Command.call_writes (command arguments : List String) (environment : Environment)
    (host : Host) : (call command environment arguments).Writes host
      (leftTexts (run host.disk environment (command ++ arguments))) := by
  cases hrun : run host.disk environment (command ++ arguments) with
  | error fault =>
    have hquery := Run.exec_query
      (fun host : Host => run host.disk environment (command ++ arguments)) host
    rw [hrun] at hquery
    exact Run.Writes.bind_error hquery rfl
  | ok left =>
    intro id text hrecords
    obtain ⟨console, hcall, hafter⟩ := call_records hrun hrecords
    rw [hcall, leftTexts, String.join_cons, String.join_cons, String.join_nil, String.append_empty]
    exact hafter

/-- Watching a call writes nothing. -/
theorem Invocation.watched_writes {call : Run Unit} {host : Host} {texts : List String}
    (h : call.Writes host texts) (signals : List Signal) : (watched signals call).Writes host texts :=
  h.attempt.bind_silent fun ending after => Run.Writes.ofExcept (settle signals ending) after

/-- A run of javap writes what its process leaves. -/
theorem JavaTools.withEntry_writes (tools : JavaTools) (signals : List Signal)
    (arguments : List String) (host : Host) :
    (tools.withEntry fun entry => Invocation.watched signals (entry arguments)).Writes host
      (Command.leftTexts (tools.process arguments host)) := by
  have hquery := Run.exec_query tools.command host
  have hquery' := Run.exec_query tools.environment host
  unfold withEntry process
  cases hcommand : tools.command host with
  | error fault =>
    rw [hcommand] at hquery
    exact Run.Writes.bind_error hquery rfl
  | ok command =>
    rw [hcommand] at hquery
    refine Run.Writes.bind_ok hquery rfl ?_
    cases henvironment : tools.environment host with
    | error fault =>
      rw [henvironment] at hquery'
      exact Run.Writes.bind_error hquery' rfl
    | ok environment =>
      rw [henvironment] at hquery'
      exact Run.Writes.bind_ok hquery' rfl
        (Invocation.watched_writes (Command.call_writes command arguments environment host) signals)

/-- **A run of a tool writes its texts**, whatever its backend and however it ends. -/
theorem Invocation.run_writes (b : Backend) (root resource : Path) (host : Host) :
    (invoke b root resource).Writes host (b.texts root resource host) := by
  unfold Backend.texts
  cases hb : b.engine with
  | javap =>
    rw [invoke_eq, Backend.withEntry_javap hb]
    exact JavaTools.withEntry_writes _ _ _ host
  | module entry entryText =>
    simp only
    cases hbase : ({ root, entry, entryText } : ModuleTools).checkedRoot host.disk with
    | ok base => exact invoke_writes root resource host hb hbase
    | error fault =>
      refine Run.Writes.of_console ?_
      rw [invoke_eq, Backend.withEntry_module hb, ModuleTools.withEntry_exec_error hbase]

namespace Service

variable {s : Service} {store : ErrorStore} {unit : ClassUnit} {root : Path} {host : Host}
  {loc : Location} {fault : Fault} {outcome : Outcome}

/-- What the tool writes in a disassembly: nothing if the class file cannot be made. -/
def texts (s : Service) (unit : ClassUnit) (root : Path) (host : Host) : List String :=
  match s.makeFile unit host with
  | (.error _, _) => []
  | (.ok resource, made) => s.backend.texts root resource.path (toolStart made)

/-- **What is captured is what the tool wrote.** -/
theorem captured_comesTo (hinvoker : s.invoker = Invocation.invoke) (unit : ClassUnit) (root : Path)
    (host : Host) :
    (s.comesTo unit root host).captured = String.join (s.texts unit root host) := by
  unfold comesTo texts
  rcases s.makeFile unit host with ⟨_ | resource, made⟩
  · rfl
  · have hrecords := Invocation.run_writes s.backend root resource.path (toolStart made)
      made.console.begin.1 "" made.console.records_begin
    rw [String.empty_append, ← hinvoker] at hrecords
    exact hrecords.textOf_finish

end Service

/-! ## 2. What the outcome tells -/

namespace Text

theorem allBlank_append (a b : String) : allBlank (a ++ b) = (allBlank a && allBlank b) := by
  unfold allBlank
  rw [String.toList_append, List.all_append]

theorem stripEnd_ne_empty {text : String} (h : allBlank text = false) : stripEnd text ≠ "" := by
  intro hempty
  have hnone : text.toList.reverse.dropWhile isBlank = [] := by
    have htoList := congrArg String.toList hempty
    rw [stripEnd, String.toList_ofList] at htoList
    exact List.reverse_eq_nil_iff.mp htoList
  have hall : allBlank text = true := List.all_eq_true.mpr fun c hc =>
    List.dropWhile_eq_nil_iff.mp hnone c (List.mem_reverse.mpr hc)
  rw [hall] at h
  cases h

end Text

theorem FaultClass.name_visible (kind : FaultClass) : Text.allBlank kind.name = false := by
  cases kind <;> rfl

namespace Fault

variable {fault : Fault} {report : String}

/-- A report ends with the one on the failure itself. -/
theorem report_ends (h : fault.report = .ok report) :
    ∃ front own, fault.ownReport = .ok own ∧ report = front ++ own := by
  obtain ⟨-, -, h⟩ := ok_of_bind h
  have hpeel : ∀ {before : Except Fault String} {bridge : String},
      (do let before ← before; return before ++ bridge ++ (← fault.ownReport)) = .ok report →
        ∃ front own, fault.ownReport = .ok own ∧ report = front ++ own := by
    intro before bridge hreport
    cases before with
    | error trouble => cases hreport
    | ok before =>
      cases hown : fault.ownReport with
      | error trouble =>
        rw [hown] at hreport
        cases hreport
      | ok own =>
        rw [hown] at hreport
        cases hreport
        exact ⟨_, own, rfl, rfl⟩
  rcases fault with ⟨kind, args, cause, context, raised⟩
  cases cause with
  | some cause => exact hpeel h
  | none =>
    cases context with
    | some context => exact hpeel h
    | none => exact ⟨"", report, h, String.empty_append.symm⟩

/-- Something is to be seen in a report: the class of the failure at least. -/
theorem report_visible (h : fault.report = .ok report) : Text.allBlank report = false := by
  obtain ⟨front, own, hown, rfl⟩ := report_ends h
  obtain ⟨⟨lines, note⟩, -, hown⟩ := ok_of_bind hown
  obtain ⟨message, -, hown⟩ := ok_of_bind hown
  cases hown
  simp only [finalLine, FaultClass.qualified, Text.allBlank_append, FaultClass.name_visible,
    Bool.false_and, Bool.and_false]

end Fault

namespace Classifier

/-- The part of a failure's detail about the class. -/
def classPart (className : String) : String :=
  if className = "" then "" else "Class: " ++ className ++ "\n\n"

/-- The part of a failure's detail about what the tool wrote, on lines of its own. -/
def outputPart (captured : String) : String :=
  if Text.allBlank captured then "" else "\n\nTool output:\n" ++ Text.stripEnd captured

theorem detail_eq {trace : String} (h : trace ≠ "") (className captured : String) :
    detail className trace captured = classPart className ++ trace ++ outputPart captured := by
  have hbridge : ∀ text : String, "\n\n" ++ ("Tool output:\n" ++ text) = "\n\nTool output:\n" ++ text :=
    fun text => by rw [← String.append_assoc]; rfl
  unfold detail detailParagraphs classPart outputPart Text.join
  rw [if_neg h]
  split <;> split <;>
    simp [String.intercalate_cons_cons, String.append_assoc, hbridge]

variable {c : Classifier} {fault : Fault} {className captured : String} {toolRoot : Option Path}
  {outcome : Outcome}

/-- **What is told of a failure**: the text and the diagnostic, both from one report. -/
theorem classify_says (h : c.classify fault className toolRoot captured = .ok outcome)
    (hkind : outcome.kind = .failure) :
    ∃ report message, fault.report = .ok report ∧ fault.tell = .ok message ∧
      outcome = c.failedWith fault className captured (Text.stripEnd report) message := by
  have hclass := (classify_kind h).symm.trans hkind
  rcases classify_ok h with ⟨hk, -⟩ | ⟨hk, -⟩ | ⟨-, hfailed⟩
  · cases hclass.symm.trans hk
  · cases hclass.symm.trans hk
  · exact failed_ok hfailed

end Classifier

/-! ## 3. What the record tells -/

namespace Service

variable {s : Service} {store : ErrorStore} {unit : ClassUnit} {root : Path} {host : Host}
  {loc : Location} {fault : Fault} {outcome : Outcome} {captured trace message : String}

/-- The store can be written when a disassembly fails: its directory holds files only and has room for
the file of the new record, the time is one that has a date, and no file has the new record's id. -/
structure Writable (store : ErrorStore) (loc : Location) (host : Host) : Prop where
  usable : Usable store host.disk loc
  now : Accepted host.clock.read.1
  fits : ∀ moment, Moment.ofStamp host.clock.read.1 = .ok moment →
    ErrorStore.Fits store (recordName moment "disassemble" (host.recordsTaken + 1))
  fresh : ∀ name ∈ host.disk.tree.children loc, describes (idOf (host.recordsTaken + 1)) name = false

/-- **A store that can be written before a disassembly can be written when the run is over.** -/
theorem Writable.cleaned (h : Writable store loc host) (unit : ClassUnit) (root : Path)
    (hstore : s.store = some store) (hinvoker : s.invoker = Invocation.invoke)
    (hfits : s.Fits host) : Writable store loc (s.cleaned unit root host) := by
  obtain ⟨halone, hclock, hnumbers⟩ :=
    cleaned_leavesAlone unit root hstore hinvoker hfits h.usable.toEnclosed
  refine ⟨h.usable.leftAlone halone, by rw [hclock]; exact h.now, ?_, ?_⟩
  · rw [hclock, hnumbers]
    exact h.fits
  · rw [hnumbers, halone.listing loc h.usable.locate]
    exact h.fresh

/-- The record tells of the failure, and has all of the captured text, or null if there is none. -/
structure RecordTells (r : ErrorRecord) (fault : Fault) (captured : String) : Prop where
  toolOutput : r.toolOutput = if captured = "" then .null else .str captured
  errorType : r.errorType = .str fault.name
  errorMessage : r.errorMessage = .str fault.message

/-- A record reads back with all of the captured text and with the message if they have no single
halves of pairs. -/
theorem RecordTells.reread {r : ErrorRecord} (h : RecordTells r fault captured)
    (hcaptured : Text.IsWhole captured) (hmessage : Text.IsWhole fault.message) :
    RecordTells r.reread fault captured where
  toolOutput := by
    show r.toolOutput.reread = _
    rw [h.toolOutput]
    split
    · rfl
    · exact hcaptured.reread
  errorType := by
    show r.errorType.reread = _
    rw [h.errorType, fault.reread_name]
  errorMessage := by
    show r.errorMessage.reread = _
    rw [h.errorMessage, hmessage.reread]

/-- The record of a failed disassembly tells of it. -/
theorem recordOf_tells (host : Host) (s : Service) (unit : ClassUnit) (root : Path) (captured : String)
    (fault : Fault) (outcome : Outcome) (trace : String) :
    RecordTells (recordOf host fault (s.reportOf unit root captured outcome trace) fault.message)
      fault captured := by
  refine ⟨?_, rfl, rfl⟩
  unfold recordOf reportOf
  by_cases hnone : captured = ""
  · rw [if_pos hnone, hnone]
    rfl
  · have hkept : (some captured).filter (· != "") = some captured :=
      Option.filter_some_pos (by simpa using hnone)
    rw [if_neg hnone, hkept]
    rfl

/-- Handling a failure stores a record that tells of it. -/
theorem handleFailure_stored (hstore : s.store = some store) (hw : Writable store loc host)
    (hc : s.classifier.classify fault unit.name (some root) captured = .ok outcome)
    (hreport : fault.report = .ok trace) (htell : fault.tell = .ok message)
    (hspared : ¬ store.PrunesAtOnce host fault (s.reportOf unit root captured outcome trace)) :
    ∃ r, RecordTells r fault captured ∧ Stored store loc (host.recordsTaken + 1) r
      ((s.handleFailure unit root captured fault).exec host).2 := by
  obtain ⟨before, last, hexec⟩ := handleFailure_exec hstore hc htell host
  let report := s.reportOf unit root captured outcome trace
  have hoperation : ErrorStore.NamesFile "disassemble" :=
    ⟨by decide, Files.Disk.nameable_of_ascii (by decide)⟩
  have hnames : ErrorStore.NamesFile report.operation := hoperation
  -- the log has no part in any of this
  let logged : Host := { host with log := before }
  have hlogged : Writable store loc logged := ⟨hw.usable, hw.now, hw.fits, hw.fresh⟩
  have hunpruned : ¬ store.PrunesAtOnce logged fault report := hspared
  have hstored : Stored store loc (host.recordsTaken + 1) (recordOf logged fault report fault.message)
      ((store.record fault report).exec logged).2 :=
    hlogged.usable.record_stored hnames hlogged.fits hlogged.now hlogged.fresh htell hunpruned
  rw [hexec, hreport, Run.exec_bind_ok (Run.exec_ofExcept (.ok trace) _)]
  exact ⟨_, recordOf_tells _ s unit root captured fault outcome trace, hstored.congr rfl rfl⟩

/-- A disassembly that fails ran a tool, and the failure that the run ended in was classified. -/
theorem disassemble_failed (h : ((s.disassemble unit).exec host).1 = .ok outcome)
    (hkind : outcome.kind = .failure) :
    ∃ root fault, s.configuration.toolPath = some root ∧
      caught? (s.comesTo unit root host).ending = some fault ∧
      s.classifier.classify fault unit.name (some root) (s.comesTo unit root host).captured =
        .ok outcome := by
  cases hroot : s.configuration.toolPath with
  | none =>
    -- without a tool there is another kind of outcome
    unfold disassemble at h
    rw [hroot] at h
    cases h
    cases hkind
  | some root =>
    rw [disassemble_verdict hroot] at h
    unfold verdict at h
    cases hending : (s.comesTo unit root host).ending with
    | ok _ =>
      rw [hending] at h
      cases h
      cases hkind
    | error fault =>
      rw [hending] at h
      simp only at h
      split at h
      · rename_i hordinary
        exact ⟨root, fault, rfl, by rw [hending, caught?_eq_some]; exact ⟨rfl, hordinary⟩,
          (handled_ok_iff.mp h).1⟩
      · cases h

/-- A failed disassembly stores a record that tells of it. -/
theorem disassemble_stored (hroot : s.configuration.toolPath = some root)
    (hcaught : caught? (s.comesTo unit root host).ending = some fault)
    (hstore : s.store = some store) (hw : Writable store loc (s.cleaned unit root host))
    (hc : s.classifier.classify fault unit.name (some root) (s.comesTo unit root host).captured =
      .ok outcome)
    (hreport : fault.report = .ok trace) (htell : fault.tell = .ok message)
    (hspared : ¬ store.PrunesAtOnce (s.cleaned unit root host) fault
      (s.reportOf unit root (s.comesTo unit root host).captured outcome trace)) :
    ∃ n r, RecordTells r fault (s.comesTo unit root host).captured ∧
      Stored store loc n r ((s.disassemble unit).exec host).2 := by
  obtain ⟨r, htells, hstored⟩ := handleFailure_stored hstore hw hc hreport htell hspared
  rw [disassemble_after hroot, conclude_caught hcaught]
  exact ⟨_, r, htells, hstored.congr rfl rfl⟩

/-- **A failed disassembly loses nothing.**  A disassembly whose outcome is a failure ran a tool, and the
run ended in the failure that is told.  Let `t` be all that the tool wrote, while it was loaded and while
it was called, and nothing if the class file could not be made.

* The text of the outcome is the block of the backend, then the class if it has a name, then the report
  on the failure with its history, and then `t`; blanks at the end of the report and of `t` are left
  out, and so is a blank `t`.
* The reason is the class of the failure with its message, and the details have the same report.
* Where the store can be written when the run is over, as it can if it could be before
  (`Writable.cleaned`), the record of the failure is in its file, unless it was pruned at once, and asking
  for its id gives it.  It has all of `t`, or null if the tool wrote nothing,
  and the class and the message of the failure.  They read back as they are unless they hold single halves
  of pairs of code units, or the characters from U+10D800 to U+10DFFF that stand for these here. -/
theorem failure_loses_nothing (hinvoker : s.invoker = Invocation.invoke)
    (h : ((s.disassemble unit).exec host).1 = .ok outcome) (hkind : outcome.kind = .failure) :
    ∃ root fault trace diagnostic, s.configuration.toolPath = some root ∧
      (s.comesTo unit root host).ending = .error fault ∧ fault.report = .ok trace ∧
      let t := String.join (s.texts unit root host)
      outcome.text = s.backend.label ++ " Error! " ++ Diagnostic.reportNotice ++ "\n\n" ++
        Diagnostic.fixNotice ++ "\n\n" ++ (Classifier.classPart unit.name ++ Text.stripEnd trace ++
          Classifier.outputPart t) ∧
      outcome.diagnostic = some diagnostic ∧ diagnostic.reason = some fault.reason ∧
      diagnostic.details = [(.str "backend", .str s.backend.label),
        (.str "class_name", .str unit.name), (.str "error_type", .str fault.name),
        (.str "traceback", .str (Text.stripEnd trace))] ∧
      ∀ store loc, s.store = some store → Writable store loc (s.cleaned unit root host) →
        ¬ store.PrunesAtOnce (s.cleaned unit root host) fault
          (s.reportOf unit root t outcome trace) →
        ∃ (r : ErrorRecord) (id : String) (mode : ℕ) (last : Host),
          nodeAt ((s.disassemble unit).exec host).2.disk loc r.fileName =
            some (.file (.bytes (fileBytes (.obj r.members))) mode) ∧
          RecordTells r fault t ∧ r.errorId = .str id ∧
          (store.get? id).exec ((s.disassemble unit).exec host).2 = (.ok (some r.reread), last) ∧
          (Text.IsWhole t → Text.IsWhole fault.message → RecordTells r.reread fault t) := by
  obtain ⟨root, fault, hroot, hcaught, hc⟩ := disassemble_failed h hkind
  rw [captured_comesTo hinvoker] at hc
  obtain ⟨trace, message, hreport, htell, houtcome⟩ := Classifier.classify_says hc hkind
  cases Classifier.tell_ok htell
  have hne : Text.stripEnd trace ≠ "" := Text.stripEnd_ne_empty (Fault.report_visible hreport)
  refine ⟨root, fault, trace, _, hroot, (caught?_eq_some.mp hcaught).1, hreport, ?_,
    congrArg Outcome.diagnostic houtcome, rfl, ?_, fun store loc hstore hw hspared => ?_⟩
  · rw [houtcome, ← Classifier.detail_eq hne]
    rfl
  · simp only [Diagnostic.disassemblyFailed, if_neg hne]
    rfl
  · rw [← captured_comesTo hinvoker] at hc hspared ⊢
    obtain ⟨n, r, htells, hstored⟩ :=
      disassemble_stored hroot hcaught hstore hw hc hreport htell hspared
    obtain ⟨mode, hfile⟩ := hstored.file
    obtain ⟨last, hget, -⟩ := hstored.get
    exact ⟨r, _, mode, last, hfile, htells, hstored.made.id, hget, htells.reread⟩

/-- A javap that writes on both of its streams and ends with status 1. -/
theorem refused_class_loses_nothing :
    let store : ErrorStore := { directory := ⟨.root, ["errors"]⟩ }
    let s : Service := {
      backend := Backend.javap
      configuration := {
        toolPath := some ⟨.root, ["jdk"]⟩, tempDirectory := some ⟨.root, ["temp"]⟩ }
      store := some store }
    let javap : Program := {
      stdout := Text.encode "half ", stderr := Text.encode "bad magic\n", ending := .exit 1 }
    let host : Host := {
      disk := { tree := ⟨[(["temp"], .directory 0o755), (["errors"], .directory 0o755),
        (["jdk"], .directory 0o755), (["jdk", "bin"], .directory 0o755),
        (["jdk", "bin", "javap"], .file (.program javap) 0o755)]⟩ } }
    let after := ((s.disassemble ⟨[0xca, 0xfe], "Foo"⟩).exec host).2
    ∃ (outcome : Outcome) (front id : String) (r : ErrorRecord) (last : Host),
      ((s.disassemble ⟨[0xca, 0xfe], "Foo"⟩).exec host).1 = .ok outcome ∧
      outcome.text = front ++ "\n\nTool output:\nhalf bad magic" ∧
      (store.get? id).exec after = (.ok (some r.reread), last) ∧ r.errorId = .str id ∧
      r.toolOutput = .str "half bad magic\n" ∧ r.errorType = .str "ToolExitError" := by
  intro store s javap host after
  let unit : ClassUnit := ⟨[0xca, 0xfe], "Foo"⟩
  let root : Path := ⟨.root, ["jdk"]⟩
  have hkind : ((s.disassemble unit).exec host).1.toOption.map Outcome.kind = some .failure := by
    rw [disassemble_verdict rfl]
    decide +kernel
  have htexts : s.texts unit root host = ["half ", "bad magic\n"] := by decide +kernel
  have hcaught : (caught? (s.comesTo unit root host).ending).map Fault.name =
      some "ToolExitError" := by decide +kernel
  have hempty : (store.entriesIn host.disk).length = 0 := by decide +kernel
  have herrors : host.disk.locate true store.directory.text = .ok ["errors"] :=
    Run.ok_of_toOption (by decide +kernel)
  have hmoment : Moment.ofStamp (.int 1700000000) = .ok ⟨2023, 11, 14, 22, 13, 20⟩ := rfl
  have hwritable : Writable store ["errors"] host := by
    refine ⟨.of_bare (by decide) herrors ⟨0o755, rfl⟩ (by decide)
      (Files.Disk.nameable_of_ascii (by decide)) ⟨by decide, by decide⟩ ⟨by decide, by decide⟩,
      ErrorStore.accepted_int hmoment, fun moment hm => ?_, by decide⟩
    cases hmoment.symm.trans hm
    unfold ErrorStore.Fits
    decide +kernel
  have hfits : s.Fits host := by
    refine ⟨⟨⟨Files.Tree.WellFormed.of_nodes (by decide), fun name hm => by cases hm⟩, ?_,
      fun fault h => (by cases h)⟩, fun other h => ?_⟩
    · rintro path ⟨⟩
      decide
    · cases h
      refine .inl ⟨["errors"], hwritable.usable.toEnclosed, fun hsame => ?_⟩
      exact absurd hsame.locate (by decide)
  have halone := (cleaned_leavesAlone unit root rfl rfl hfits hwritable.usable.toEnclosed).1
  have hroom : ((store.entriesIn (s.cleaned unit root host).disk).length : ℤ) < store.maxErrors := by
    rw [hwritable.usable.entries_leftAlone halone, hempty]
    decide
  obtain ⟨outcome, houtcome, hfailure⟩ := Option.map_eq_some_iff.mp hkind
  have hresult : ((s.disassemble unit).exec host).1 = .ok outcome := Run.ok_of_toOption houtcome
  obtain ⟨root', fault, trace, diagnostic, hroot, hending, hreport, htext, hdiagnostic, hreason, hdetails,
    hrecord⟩ := failure_loses_nothing rfl hresult hfailure
  cases hroot
  have hjoin : String.join (s.texts unit root host) = "half bad magic\n" := by rw [htexts]; rfl
  have hprunes : ¬ store.PrunesAtOnce (s.cleaned unit root host) fault
      (s.reportOf unit root (String.join (s.texts unit root host)) outcome trace) :=
    ErrorStore.not_drops_of_few hroom
  have hready : Writable store ["errors"] (s.cleaned unit root host) :=
    hwritable.cleaned (s := s) unit root rfl rfl hfits
  obtain ⟨r, id, _, last, -, htells, hid, hget, -⟩ := hrecord store ["errors"] rfl hready hprunes
  have houtput := htells.toolOutput
  have htype := htells.errorType
  obtain ⟨caught, hcaught, hname⟩ := Option.map_eq_some_iff.mp hcaught
  cases (caught?_eq_some.mp hcaught).1.symm.trans hending
  rw [hname] at htype
  rw [hjoin] at htext houtput
  have hpart : Classifier.outputPart "half bad magic\n" = "\n\nTool output:\nhalf bad magic" := by
    decide +kernel
  rw [hpart, ← String.append_assoc] at htext
  exact ⟨outcome, _, id, r, last, hresult, htext, hget, hid, houtput, htype⟩

end Service

end Dissect
