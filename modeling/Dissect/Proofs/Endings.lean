/-
# How a disassembly ends

What a disassembly ends in is decided by how the run of the tool ended and what was captured
(`verdict`).  Of what is logged and recorded on the way only one thing has a say: the log tells the
failure.  Recording never fails.

From this it can be told which requests to stop come through: those that tool code raised, while
the modules of the tool were being loaded or while the entry point was called (`invoke_stop_iff`).
A request to exit is treated differently.  One that the entry point raises never comes through: it
counts as success or becomes the failure of a tool that exited.  One that is raised while the
modules are being loaded always does, because it arises before the call of the entry point is
watched (`disassemble_exits_iff`).
-/
import Dissect.Proofs.Cleanup
import Dissect.Proofs.OrdinaryFaults

namespace Dissect

open Files (Disk)

/-- There is only one class of requests to exit. -/
theorem Fault.kind_of_exit {fault : Fault} (h : fault.isA .systemExit = true) :
    fault.kind = .systemExit := by
  unfold isA at h
  cases hk : fault.kind <;> rw [hk] at h <;> first | rfl | cases h

/-! ## 1. The verdict on a run -/

namespace Service

variable {s : Service} {unit : ClassUnit} {root : Path} {host made : Host} {resource : Disposable}

/-- What comes of an ordinary failure: its outcome, if it can be told. -/
def handled (s : Service) (unit : ClassUnit) (root : Path) (captured : String) (fault : Fault) :
    Except Fault Outcome := do
  let outcome ← s.classifier.classify fault unit.name (some root) captured
  let _ ← fault.tell
  return outcome

/-- What a disassembly ends in when the run is over. -/
def verdict (s : Service) (unit : ClassUnit) (root : Path) (finished : Finished) :
    Except Fault Outcome :=
  match finished.ending with
  | .ok () => .ok (Outcome.success finished.captured)
  | .error fault =>
    if fault.kind.isOrdinary then s.handled unit root finished.captured fault else .error fault

/-- An outcome that was made is that of a failure that can be told. -/
theorem handled_ok_iff {captured : String} {fault : Fault} {outcome : Outcome} :
    s.handled unit root captured fault = .ok outcome ↔
      s.classifier.classify fault unit.name (some root) captured = .ok outcome ∧
        ∃ message, fault.tell = .ok message := by
  unfold handled
  cases s.classifier.classify fault unit.name (some root) captured with
  | error trouble => exact iff_of_false nofun fun h => nomatch h.1
  | ok made =>
    cases fault.tell with
    | error trouble => exact iff_of_false nofun fun ⟨_, _, h⟩ => nomatch h
    | ok message => exact ⟨fun h => ⟨h, message, rfl⟩, fun h => h.1⟩

/-- Classifying a failure tells it, unless nothing is configured. -/
theorem handled_eq_classify {captured : String} {fault : Fault}
    (h : Classifier.kindOf fault.kind ≠ .toolNotConfigured) :
    s.handled unit root captured fault =
      s.classifier.classify fault unit.name (some root) captured := by
  cases hc : s.classifier.classify fault unit.name (some root) captured with
  | error trouble => rw [handled, hc]; rfl
  | ok outcome =>
    refine handled_ok_iff.mpr ⟨hc, ?_⟩
    rcases Classifier.classify_ok hc with ⟨hk, -⟩ | ⟨-, message, htell, -⟩ | ⟨-, hfailed⟩
    · exact absurd hk h
    · exact ⟨message, htell⟩
    · obtain ⟨-, message, -, htell, -⟩ := Classifier.failed_ok hfailed
      exact ⟨message, htell⟩

theorem handled_fails (s : Service) (unit : ClassUnit) (root : Path) (captured : String)
    (fault : Fault) : FailsOwn (s.handled unit root captured fault) :=
  (s.classifier.classify_fails _ _ _ _).bind fun _ => (Fault.tell_fails fault).bind fun _ =>
    FailsAs.pure _

/-- Trouble with recording goes no further. -/
theorem recordFailure_result (s : Service) (unit : ClassUnit) (fault : Fault)
    (report : String → ErrorStore.Report) (host : Host) :
    ((s.recordFailure unit fault report).exec host).1 = .ok () := by
  unfold recordFailure
  cases s.store with
  | none => rfl
  | some store =>
    have hfails : (do store.record fault (report (← Run.ofExcept fault.report)) :
        Run ErrorRecord).Fails Fault.IsOwn :=
      (Run.Fails.ofExcept (Fault.report_fails fault)).bind fun _ => store.record_fails fault _
    simp only
    rw [Run.exec_bind_ok (Run.exec_attempt _ host)]
    have htrouble := hfails host
    cases hr : ((do store.record fault (report (← Run.ofExcept fault.report))) :
        Run ErrorRecord).exec host with
    | mk result after =>
      rw [hr] at htrouble
      cases result with
      | ok r => rfl
      | error trouble =>
        have hown : trouble.IsOwn := htrouble trouble rfl
        have hordinary : trouble.kind.isOrdinary = true := hown.ordinary
        simp only
        rw [if_pos hordinary, Fault.tell_of_told hown.told]
        rfl

/-- The log tells the failure, if it can be told. -/
theorem noteFailure_exec (s : Service) (unit : ClassUnit) (fault : Fault) (outcome : Outcome)
    (host : Host) :
    ∃ after, (s.noteFailure unit fault outcome).exec host =
      (fault.tell.map fun _ => (), after) := by
  unfold noteFailure
  rw [Run.exec_bind, Run.exec_ofExcept]
  cases fault.tell with
  | error trouble => exact ⟨host, rfl⟩
  | ok message =>
    simp only
    split <;> exact ⟨_, rfl⟩

/-- **The verdict is what comes out**, whatever is logged and recorded. -/
theorem conclude_result (finished : Finished) (host : Host) :
    ((s.conclude unit root finished).exec host).1 = s.verdict unit root finished := by
  unfold conclude verdict
  cases finished.ending with
  | ok _ => rfl
  | error fault =>
    simp only
    split
    · unfold handleFailure handled
      cases hc : s.classifier.classify fault unit.name (some root) finished.captured with
      | error trouble =>
        rw [Run.exec_bind_error (by rw [Run.exec_ofExcept])]
        rfl
      | ok outcome =>
        obtain ⟨noted, hnoted⟩ := noteFailure_exec s unit fault outcome host
        rw [Run.exec_bind_ok (by rw [Run.exec_ofExcept])]
        cases htell : fault.tell with
        | error trouble =>
          rw [htell] at hnoted
          rw [Run.exec_bind_error hnoted]
          rfl
        | ok message =>
          rw [htell] at hnoted
          have hrecorded := recordFailure_result s unit fault
            (s.reportOf unit root finished.captured outcome) noted
          rw [Run.exec_bind_ok hnoted, Run.exec_bind]
          cases hr : (s.recordFailure unit fault
              (s.reportOf unit root finished.captured outcome)).exec noted with
          | mk result after =>
            rw [hr] at hrecorded
            cases hrecorded
            rfl
    · rfl

/-- What a run of the tool on a class file comes to: what was captured, and how it ended. -/
def finishedOf (s : Service) (root : Path) (resource : Disposable) (made : Host) : Finished :=
  ⟨(finishCapture made.console.begin.1 (s.toolEnd root resource made)).console.textOf
      made.console.begin.1,
    ((s.invoker s.backend root resource.path).exec (toolStart made)).1⟩

theorem runOn_finished (s : Service) (root : Path) (resource : Disposable) (made : Host) :
    ((s.runOn root resource).exec made).1 = .ok (s.finishedOf root resource made) := rfl

/-- **What a disassembly ends in.** -/
theorem disassemble_result (hroot : s.configuration.toolPath = some root) (unit : ClassUnit)
    (host : Host) :
    ((s.disassemble unit).exec host).1 =
      s.verdict unit root
        (match s.makeFile unit host with
        | (.error fault, _) => ⟨"", .error fault⟩
        | (.ok resource, made) => s.finishedOf root resource made) := by
  have hrun := run_exec s unit root host
  rw [disassemble_exec hroot]
  cases hmake : s.makeFile unit host with
  | mk result made =>
    rw [hmake] at hrun
    cases result with
    | error fault =>
      rw [Run.exec_bind_ok hrun]
      exact conclude_result _ _
    | ok resource =>
      have hfinished : (s.run unit root).exec (setLock true host) =
          (.ok (s.finishedOf root resource made), s.tidied root resource made) := by
        rw [hrun, ← runOn_host, ← runOn_finished]
      rw [Run.exec_bind_ok hfinished]
      exact conclude_result _ _

end Service

/-! ## 2. How the tool is entered -/

namespace ModuleTools

variable {tools : ModuleTools} {root : Path} {host : Host} {fault : Fault}

/-- Finding the entry point: the module is loaded, and the entry point looked up in it. -/
theorem enter_exec (tools : ModuleTools) (root : Path) (host : Host) :
    (tools.enter root).exec host =
      if tools.isFound host.disk root then
        match (Import.loadModule tools.entry.module).exec host with
        | (.ok (), loaded) => (tools.routine root loaded, loaded)
        | (.error fault, loaded) => (.error (tools.importFault root fault), loaded)
      else
        (.error
          (loadFault root ("Module '" ++ tools.topLevel ++ "' not found under " ++ root.text)),
          host) := by
  unfold enter
  rw [Run.exec_bind_ok (Run.exec_get host)]
  cases tools.isFound host.disk root with
  | false => rfl
  | true =>
    simp only [Bool.not_true, Bool.false_eq_true, if_false, if_true]
    rw [Run.exec_bind_ok (Run.exec_attempt _ host)]
    cases (Import.loadModule tools.entry.module).exec host with
    | mk result loaded =>
      cases result with
      | ok _ => exact Run.exec_query _ _
      | error fault => rfl

/-- The entry point of a module whose file lies under the root. -/
theorem routine_of_module {path : Path} {m : Module} {file : String} {actions : List Action}
    (hm : host.modules.get? tools.entry.module = some m) (hfile : m.origin = some file)
    (hpath : host.disk.resolve (Path.ofText file) = .ok path) (hwithin : path.isWithin root = true)
    (hroutine : m.member? tools.entry.routine = some (.routine actions)) :
    tools.routine root host = .ok actions := by
  simp [routine, hm, hfile, liesUnder, hpath, hwithin, hroutine, bind, Except.bind, pure,
    Except.pure]

/-- A tool is entered whose module is loaded from a file under the root. -/
theorem enter_of_module {loaded : Host} {path : Path} {m : Module} {file : String}
    {actions : List Action} (hfound : tools.isFound host.disk root = true)
    (hload : (Import.loadModule tools.entry.module).exec host = (.ok (), loaded))
    (hm : loaded.modules.get? tools.entry.module = some m) (hfile : m.origin = some file)
    (hpath : loaded.disk.resolve (Path.ofText file) = .ok path)
    (hwithin : path.isWithin root = true)
    (hroutine : m.member? tools.entry.routine = some (.routine actions)) :
    (tools.enter root).exec host = (.ok actions, loaded) := by
  rw [enter_exec, if_pos hfound, hload]
  simp only [routine_of_module hm hfile hpath hwithin hroutine]

/-- A request to stop that arises while a module is loaded stays what it is. -/
theorem importFault_of_stop (h : ¬ fault.IsOrdinary) : tools.importFault root fault = fault := by
  have hpermission : ¬ fault.isA .permissionError = true := fun hp => h (.of_isA rfl hp)
  have himport : ¬ fault.isA .importError = true := fun hi => h (.of_isA rfl hi)
  have hstop : ¬ fault.kind.isA .stopIteration = true := fun hs => h (.of_isA rfl hs)
  unfold importFault
  rw [if_neg hpermission, if_neg himport, Fault.outOfGenerator, if_neg hstop]

/-- Nothing else is told as a request to stop. -/
theorem stop_of_importFault (h : ¬ (tools.importFault root fault).IsOrdinary) :
    ¬ fault.IsOrdinary := by
  unfold importFault at h
  split at h
  · exact absurd (Fault.retold_ordinary (fun message => by rfl) fault) h
  · split at h
    · exact absurd (Fault.retold_ordinary (fun message => by rfl) fault) h
    · unfold Fault.outOfGenerator at h
      split at h
      · exact absurd rfl h
      · exact h

/-- Finding the entry point ends in a request to stop exactly if the loading of its module does. -/
theorem enter_stop_iff {after : Host} (h : ¬ fault.IsOrdinary) :
    (tools.enter root).exec host = (.error fault, after) ↔
      tools.isFound host.disk root = true ∧
        (Import.loadModule tools.entry.module).exec host = (.error fault, after) := by
  rw [enter_exec]
  cases tools.isFound host.disk root with
  | false =>
    refine ⟨fun he => ?_, fun he => (by cases he.1)⟩
    cases he
    exact absurd rfl h
  | true =>
    simp only [if_true, true_and]
    cases hl : (Import.loadModule tools.entry.module).exec host with
    | mk result loaded =>
      cases result with
      | ok _ =>
        refine ⟨fun he => ?_, fun he => (by cases he)⟩
        exact absurd (routine_fails tools root loaded fault (congrArg Prod.fst he)) h
      | error trouble =>
        constructor
        · intro he
          obtain ⟨hfault, rfl⟩ := Prod.mk.inj he
          rw [← Except.error.inj hfault] at h
          rw [← Except.error.inj hfault, importFault_of_stop (stop_of_importFault h)]
        · intro he
          cases he
          simp only [importFault_of_stop h]

end ModuleTools

/-! ## 3. The run of the tool -/

namespace Backend

/-- A call of the entry point on a host ends in a way, on another host, and the tool can be closed
then. -/
def CallEnds (b : Backend) (root : Path) (arguments : List String) (host : Host)
    (ending : Except Fault Unit) (ended : Host) : Prop :=
  match b.engine with
  | .javap =>
    ∃ command environment, ({ root } : JavaTools).command host = .ok command ∧
      ({ root } : JavaTools).environment host = .ok environment ∧
      (Command.call command environment arguments).exec host = (ending, ended)
  | .module entry entryText =>
    let tools : ModuleTools := { root, entry, entryText }
    ∃ base actions entered, tools.checkedRoot host.disk = .ok base ∧
      (tools.enter base).exec (tools.openedHost base host) = (.ok actions, entered) ∧
      (do let _ ← Import.callRoutine entry.module actions arguments : Run Unit).exec entered =
        (ending, ended) ∧
      tools.Resolvable ended.disk host.modules ended.modules

/-- Loading the modules of the tool on a host ends in a failure, and the tool can be closed then. -/
def LoadingStops (b : Backend) (root : Path) (host : Host) (fault : Fault) : Prop :=
  match b.engine with
  | .javap => False
  | .module entry entryText =>
    let tools : ModuleTools := { root, entry, entryText }
    ∃ base loaded, tools.checkedRoot host.disk = .ok base ∧ tools.isFound host.disk base = true ∧
      (Import.loadModule entry.module).exec (tools.openedHost base host) =
        (.error fault, loaded) ∧
      tools.Resolvable loaded.disk host.modules loaded.modules

theorem withEntry_javap {α : Type} {b : Backend} (hb : b.engine = .javap) (root : Path)
    (use : (List String → Run Unit) → Run α) :
    b.withEntry root use = ({ root } : JavaTools).withEntry use := by
  unfold withEntry
  rw [hb]

theorem withEntry_module {α : Type} {b : Backend} {entry : EntryPoint} {entryText : String}
    (hb : b.engine = .module entry entryText) (root : Path)
    (use : (List String → Run Unit) → Run α) :
    b.withEntry root use = ({ root, entry, entryText } : ModuleTools).withEntry fun call =>
      use fun arguments => (do let _ ← call arguments) := by
  unfold withEntry
  rw [hb]

end Backend

namespace Invocation

variable {signals : List Signal} {host ended : Host} {ending : Except Fault Unit} {fault : Fault}

/-- What becomes of a request to exit: a failure that tells the code and is caused by the request, or
the trouble with a code that cannot be written, which arises while the request is handled. -/
theorem exitFault_cases (request : Fault) :
    (request.exitCode.demandWritten = .ok () ∧ exitFault request =
      { kind := .toolExitError, args := [request.exitCode], cause := some request,
        context := some request }) ∨
    (∃ trouble, request.exitCode.demandWritten = .error trouble ∧
      trouble.IsTellingTrouble ∧ exitFault request = trouble.whileHandling request) := by
  unfold exitFault
  cases h : request.exitCode.demandWritten with
  | ok _ => exact .inl ⟨rfl, rfl⟩
  | error trouble =>
    exact .inr ⟨trouble, rfl, Value.demandWritten_troubles _ trouble h, rfl⟩

/-- Either is ordinary and can be told. -/
theorem exitFault_own (request : Fault) : (exitFault request).IsOwn := by
  rcases exitFault_cases request with ⟨hwritten, h⟩ | ⟨trouble, -, htrouble, h⟩
  · rw [h]
    refine ⟨rfl, Fault.trouble?_eq_none_iff.mpr ⟨rfl, ?_⟩⟩
    show ∀ part ∈ [Fault.Part.fixed "Tool exited with status ", .plain request.exitCode], _
    simp only [List.forall_mem_cons, List.not_mem_nil, false_implies, implies_true, and_true]
    exact ⟨rfl, Value.demandWritten_ok_iff.mp hwritten⟩
  · rw [h]
    exact htrouble.isOwn.whileHandling request

/-- Nothing that is caused by a request to exit counts as anything but a failure. -/
theorem kindOf_exitFault (request : Fault) :
    Classifier.kindOf (exitFault request).kind = .failure := by
  rcases exitFault_cases request with ⟨-, h⟩ | ⟨trouble, -, htrouble, h⟩
  · rw [h]
    rfl
  · have hall : ∀ kind ∈ .valueError :: .recursionError :: Fault.tellingTroubles,
        Classifier.kindOf kind = .failure := by decide
    rw [h]
    exact hall trouble.kind htrouble.kind_mem

/-- The only requests to stop that the ending of an entry point can mean are those in which it
ended, other than a request to exit. -/
theorem settle_stop_iff (h : ¬ fault.IsOrdinary) :
    settle signals ending = .error fault ↔
      ending = .error fault ∧ fault.isA .systemExit = false := by
  cases ending with
  | ok _ => exact ⟨fun he => (by cases he), fun he => (by cases he.1)⟩
  | error trouble =>
    unfold settle
    simp only
    split
    · rename_i hexit
      refine ⟨fun he => ?_, fun ⟨he, hno⟩ => ?_⟩
      · split at he <;> cases he
        exact absurd (exitFault_own trouble).ordinary h
      · cases he
        rw [hexit] at hno
        cases hno
    · rename_i hno
      split
      · rename_i hordinary
        refine ⟨fun he => ?_, fun ⟨he, _⟩ => ?_⟩
        · split at he <;> cases he
          exact absurd hordinary h
        · cases he
          exact absurd hordinary h
      · refine ⟨fun he => ?_, fun he => he.1⟩
        cases he
        exact ⟨rfl, Bool.eq_false_iff.mpr hno⟩

/-- A call of the entry point that is watched. -/
def watched (signals : List Signal) (call : Run Unit) : Run Unit := do
  let ending ← Run.attempt call
  Run.ofExcept (settle signals ending)

theorem watched_exec (signals : List Signal) (call : Run Unit) (host : Host) :
    (watched signals call).exec host =
      (settle signals (call.exec host).1, (call.exec host).2) := by
  unfold watched
  rw [Run.exec_bind_ok (Run.exec_attempt _ host), Run.exec_ofExcept]

theorem invoke_eq (b : Backend) (root resource : Path) :
    invoke b root resource =
      b.withEntry root fun call => watched b.signals (call (b.argumentsFor resource)) := rfl

/-- Where the entry point is called and the tool can be closed, the run ends in what the ending of
the call means. -/
theorem invoke_of_callEnds {b : Backend} {root resource : Path}
    (h : b.CallEnds root (b.argumentsFor resource) host ending ended) :
    ((invoke b root resource).exec host).1 = settle b.signals ending ∧
      ((invoke b root resource).exec host).2.console = ended.console := by
  rw [invoke_eq]
  cases hb : b.engine with
  | javap =>
    simp only [Backend.CallEnds, hb] at h
    obtain ⟨command, environment, hcommand, henvironment, hcall⟩ := h
    have hquery := Run.exec_query ({ root } : JavaTools).command host
    have hquery' := Run.exec_query ({ root } : JavaTools).environment host
    rw [hcommand] at hquery
    rw [henvironment] at hquery'
    rw [Backend.withEntry_javap hb, JavaTools.withEntry, Run.exec_bind_ok hquery,
      Run.exec_bind_ok hquery', watched_exec, hcall]
    exact ⟨rfl, rfl⟩
  | module entry entryText =>
    simp only [Backend.CallEnds, hb] at h
    obtain ⟨base, actions, entered, hbase, henter, hcall, hclosed⟩ := h
    have hwithin : (({ root, entry, entryText } : ModuleTools).within base fun call =>
        watched b.signals (do let _ ← call (b.argumentsFor resource))).exec
          (({ root, entry, entryText } : ModuleTools).openedHost base host) =
        (settle b.signals ending, ended) := by
      rw [ModuleTools.within_exec henter, watched_exec, hcall]
    rw [Backend.withEntry_module hb, ModuleTools.withEntry_exec hbase, Run.exec_followedBy_result,
      Run.exec_followedBy_host, hwithin]
    rcases ModuleTools.close_result { root, entry, entryText } base host.modules ended with
      ⟨hok, -⟩ | ⟨fault, -, -, hno⟩
    · rw [hok, ModuleTools.close_exec]
      exact ⟨rfl, rfl⟩
    · exact absurd hclosed hno

/-- A run of javap ends in a request to stop exactly if the call does, and it is no request to
exit. -/
theorem javap_stop_iff {tools : JavaTools} {arguments : List String} (h : ¬ fault.IsOrdinary) :
    ((tools.withEntry fun entry => watched signals (entry arguments)).exec host).1 =
        .error fault ↔
      fault.isA .systemExit = false ∧ ∃ ended command environment,
        tools.command host = .ok command ∧ tools.environment host = .ok environment ∧
        (Command.call command environment arguments).exec host = (.error fault, ended) := by
  have hquery := Run.exec_query tools.command host
  have hquery' := Run.exec_query tools.environment host
  unfold JavaTools.withEntry
  cases hcommand : tools.command host with
  | error trouble =>
    rw [hcommand] at hquery
    rw [Run.exec_bind_error hquery]
    refine ⟨fun he => ?_, fun ⟨_, _, _, _, hok, _⟩ => (by cases hok)⟩
    cases he
    exact absurd (JavaTools.command_fails _ _ _ hcommand) h
  | ok command =>
    rw [hcommand] at hquery
    rw [Run.exec_bind_ok hquery]
    cases henvironment : tools.environment host with
    | error trouble =>
      rw [henvironment] at hquery'
      rw [Run.exec_bind_error hquery']
      refine ⟨fun he => ?_, fun ⟨_, _, _, _, _, hok, _⟩ => (by cases hok)⟩
      cases he
      exact absurd (JavaTools.environment_fails _ _ _ henvironment) h
    | ok environment =>
      rw [henvironment] at hquery'
      rw [Run.exec_bind_ok hquery', watched_exec, settle_stop_iff h]
      constructor
      · rintro ⟨hcall, hno⟩
        exact ⟨hno, _, command, environment, rfl, rfl, Prod.ext hcall rfl⟩
      · rintro ⟨hno, ended, _, _, hsame, hsame', hcall⟩
        cases hsame
        cases hsame'
        exact ⟨congrArg Prod.fst hcall, hno⟩

/-- While a tool made of modules is open, its loading can end in a request to stop, and the call of
its entry point in one that is no request to exit. -/
theorem within_stop_iff (signals : List Signal) (tools : ModuleTools) (base : Path)
    (call : (List String → Run Value) → Run Unit) (host ended : Host) (h : ¬ fault.IsOrdinary) :
    (tools.within base fun routine => watched signals (call routine)).exec host =
        (.error fault, ended) ↔
      (tools.enter base).exec host = (.error fault, ended) ∨
        fault.isA .systemExit = false ∧ ∃ actions entered,
          (tools.enter base).exec host = (.ok actions, entered) ∧
          (call (Import.callRoutine tools.entry.module actions)).exec entered =
            (.error fault, ended) := by
  unfold ModuleTools.within
  rw [Run.exec_bind]
  cases he : (tools.enter base).exec host with
  | mk result entered =>
    cases result with
    | error trouble =>
      refine ⟨fun hentered => .inl ?_, fun hcases => ?_⟩
      · obtain ⟨hfault, rfl⟩ := Prod.mk.inj hentered
        rw [Except.error.inj hfault]
      · rcases hcases with hentered | ⟨_, _, _, hok, _⟩
        · cases hentered
          rfl
        · cases hok
    | ok actions =>
      simp only
      rw [watched_exec]
      constructor
      · intro hwatched
        obtain ⟨hsettled, rfl⟩ := Prod.mk.inj hwatched
        obtain ⟨hcall, hno⟩ := (settle_stop_iff h).mp hsettled
        exact .inr ⟨hno, actions, entered, rfl, Prod.ext hcall rfl⟩
      · rintro (hentered | ⟨hno, _, _, hok, hcall⟩)
        · cases hentered
        · cases hok
          rw [hcall]
          simp only [(settle_stop_iff h).mpr ⟨rfl, hno⟩]

/-- A run of a tool made of modules ends in a request to stop exactly if it does so while it is open
and the tool can be closed then. -/
theorem module_stop_iff (tools : ModuleTools) (use : (List String → Run Value) → Run Unit)
    (h : ¬ fault.IsOrdinary) :
    ((tools.withEntry use).exec host).1 = .error fault ↔
      ∃ base last, tools.checkedRoot host.disk = .ok base ∧
        (tools.within base use).exec (tools.openedHost base host) = (.error fault, last) ∧
        tools.Resolvable last.disk host.modules last.modules := by
  cases hbase : tools.checkedRoot host.disk with
  | error trouble =>
    rw [ModuleTools.withEntry_exec_error hbase]
    refine ⟨fun he => ?_, fun ⟨base, _, hok, _⟩ => (by cases hok)⟩
    cases he
    exact absurd (ModuleTools.checkedRoot_fails _ _ _ hbase) h
  | ok base =>
    rw [ModuleTools.withEntry_exec hbase, Run.exec_followedBy_result]
    cases hw : (tools.within base use).exec (tools.openedHost base host) with
    | mk result last =>
      rcases ModuleTools.close_result tools base host.modules last with
        ⟨hok, hres⟩ | ⟨trouble, htrouble, hkind, hno⟩
      · simp only [hok]
        constructor
        · rintro rfl
          exact ⟨base, last, rfl, hw, hres⟩
        · rintro ⟨_, last', hsame, hw', -⟩
          cases hsame
          rw [hw] at hw'
          exact congrArg Prod.fst hw'
      · -- the failure to close the tool is what comes out, and it is no request to stop
        have hordinary : ∀ told : Fault, told.kind = trouble.kind → told.IsOrdinary := by
          intro told hsame
          unfold Fault.IsOrdinary
          rw [hsame, hkind]
          rfl
        simp only [htrouble]
        constructor
        · intro he
          cases result with
          | ok a =>
            rw [← Except.error.inj he] at h
            exact absurd (hordinary _ rfl) h
          | error earlier =>
            rw [← Except.error.inj he] at h
            exact absurd (hordinary _ (Run.kind_during trouble earlier)) h
        · rintro ⟨_, last', hsame, hw', hres⟩
          cases hsame
          rw [hw] at hw'
          cases hw'
          exact absurd hres hno

/-- **A run ends in a request to stop exactly if tool code raised it**: while the modules of the
tool were loaded, or while the entry point was called.  A request to exit is not passed on if it is
the call that ended in it. -/
theorem invoke_stop_iff {b : Backend} {root resource : Path} (h : ¬ fault.IsOrdinary) :
    ((invoke b root resource).exec host).1 = .error fault ↔
      b.LoadingStops root host fault ∨
        fault.isA .systemExit = false ∧
          ∃ ended, b.CallEnds root (b.argumentsFor resource) host (.error fault) ended := by
  rw [invoke_eq]
  unfold Backend.LoadingStops Backend.CallEnds
  cases hb : b.engine with
  | javap =>
    rw [Backend.withEntry_javap hb, javap_stop_iff h]
    exact ⟨.inr, fun hcases => hcases.elim False.elim id⟩
  | module entry entryText =>
    rw [Backend.withEntry_module hb, module_stop_iff _ _ h]
    constructor
    · rintro ⟨base, last, hbase, hwithin, hres⟩
      rcases (within_stop_iff _ _ _ _ _ _ h).mp hwithin with
        henter | ⟨hno, actions, entered, henter, hcall⟩
      · obtain ⟨hfound, hload⟩ := (ModuleTools.enter_stop_iff h).mp henter
        exact .inl ⟨base, last, hbase, hfound, hload, hres⟩
      · exact .inr ⟨hno, last, base, actions, entered, hbase, henter, hcall, hres⟩
    · rintro (⟨base, loaded, hbase, hfound, hload, hres⟩ |
        ⟨hno, ended, base, actions, entered, hbase, henter, hcall, hres⟩)
      · exact ⟨base, loaded, hbase, (within_stop_iff _ _ _ _ _ _ h).mpr
          (.inl ((ModuleTools.enter_stop_iff h).mpr ⟨hfound, hload⟩)), hres⟩
      · exact ⟨base, ended, hbase, (within_stop_iff _ _ _ _ _ _ h).mpr
          (.inr ⟨hno, actions, entered, henter, hcall⟩), hres⟩

end Invocation

/-! ## 4. Requests to stop -/

namespace Service

variable {s : Service} {unit : ClassUnit} {root : Path} {host made : Host} {resource : Disposable}

/-- Only what is not ordinary comes through unchanged. -/
theorem verdict_stop_iff {finished : Finished} {fault : Fault} (h : ¬ fault.IsOrdinary) :
    s.verdict unit root finished = .error fault ↔ finished.ending = .error fault := by
  unfold verdict
  cases finished.ending with
  | ok _ => exact ⟨fun he => (by cases he), fun he => (by cases he)⟩
  | error trouble =>
    simp only
    split
    · rename_i hordinary
      refine ⟨fun he => ?_, fun he => ?_⟩
      · exact absurd (s.handled_fails _ _ _ _ fault he).ordinary h
      · cases he
        exact absurd hordinary h
    · exact Iff.of_eq (by simp only [Except.error.injEq])

/-- What else comes out can be told. -/
theorem verdict_own {finished : Finished} {fault : Fault} (h : fault.IsOrdinary)
    (hverdict : s.verdict unit root finished = .error fault) : fault.IsOwn := by
  unfold verdict at hverdict
  cases hending : finished.ending with
  | ok _ =>
    rw [hending] at hverdict
    cases hverdict
  | error trouble =>
    simp only [hending] at hverdict
    split at hverdict
    · exact s.handled_fails _ _ _ _ fault hverdict
    · rename_i hno
      cases hverdict
      exact absurd h hno

/-- A success is the verdict on a run that ended normally, and its text is what was captured. -/
theorem success_of_verdict {finished : Finished} {outcome : Outcome}
    (h : s.verdict unit root finished = .ok outcome) (hkind : outcome.kind = .success) :
    finished.ending = .ok () ∧ outcome = Outcome.success finished.captured := by
  unfold verdict at h
  cases he : finished.ending with
  | ok _ =>
    rw [he] at h
    cases h
    exact ⟨rfl, rfl⟩
  | error fault =>
    simp only [he] at h
    split at h
    · rw [Classifier.classify_kind (handled_ok_iff.mp h).1] at hkind
      exact absurd hkind (Classifier.kindOf_ne_success fault.kind)
    · cases h

/-- What becomes of a request to exit that arose while nothing was handled can be reported. -/
theorem report_exitFault {request : Fault} (h : request.isA .systemExit = true)
    (hcause : request.cause = none) (hcontext : request.context = none) :
    ∃ report, (Invocation.exitFault request).report = .ok report := by
  have hkind := Fault.kind_of_exit h
  rcases Invocation.exitFault_cases request with ⟨-, hexit⟩ | ⟨trouble, hdemand, -, hexit⟩
  · rw [hexit]
    obtain ⟨kind, args, cause, context, raised⟩ := request
    simp only at hkind hcause hcontext
    subst hkind hcause hcontext
    exact ⟨_, rfl⟩
  · rw [hexit]
    obtain ⟨obstacle, rfl⟩ := Value.demandWritten_error hdemand
    obtain ⟨kind, args, cause, context, raised⟩ := request
    simp only at hkind hcause hcontext
    subst hkind hcause hcontext
    cases obstacle <;> exact ⟨_, rfl⟩

/-- The exit of a tool is a failure of the disassembly. -/
theorem classify_exitFault {request : Fault} {captured : String}
    (h : request.isA .systemExit = true) (hcause : request.cause = none)
    (hcontext : request.context = none) :
    ∃ outcome, s.classifier.classify (Invocation.exitFault request) unit.name (some root) captured =
      .ok outcome := by
  obtain ⟨report, hreport⟩ := report_exitFault h hcause hcontext
  have htell := Fault.tell_of_told (Invocation.exitFault_own request).told
  unfold Classifier.classify
  rw [Invocation.kindOf_exitFault request]
  unfold Classifier.failed Classifier.trace
  rw [hreport, htell]
  exact ⟨_, rfl⟩

/-- A request to stop comes out of a disassembly exactly if the class file was made and the run of
the tool ended in it. -/
theorem stop_iff_invoke {fault : Fault} (hroot : s.configuration.toolPath = some root)
    (hinvoker : s.invoker = Invocation.invoke)
    (hopen : ∀ trouble, host.openFault = some trouble → trouble.IsOrdinary)
    (h : ¬ fault.IsOrdinary) :
    ((s.disassemble unit).exec host).1 = .error fault ↔
      ∃ resource made, s.makeFile unit host = (.ok resource, made) ∧
        ((Invocation.invoke s.backend root resource.path).exec (toolStart made)).1 =
          .error fault := by
  have hresult := disassemble_result hroot unit host
  cases hmake : s.makeFile unit host with
  | mk result made =>
    rw [hmake] at hresult
    rw [hresult, verdict_stop_iff h]
    cases result with
    | error trouble =>
      constructor
      · intro he
        cases he
        exact absurd (Disposable.create_fails (by exact hopen) hmake) h
      · rintro ⟨resource, made', he, -⟩
        cases he
    | ok resource =>
      show ((s.invoker s.backend root resource.path).exec (toolStart made)).1 = _ ↔ _
      rw [hinvoker]
      constructor
      · exact fun hstops => ⟨resource, made, rfl, hstops⟩
      · rintro ⟨resource', made', he, hstops⟩
        cases he
        exact hstops

/-- A request to exit comes out of a disassembly exactly if the class file was made and the loading
of the tool's modules stopped in it. -/
theorem exit_iff_loadingStops {fault : Fault} (hroot : s.configuration.toolPath = some root)
    (hinvoker : s.invoker = Invocation.invoke)
    (hopen : ∀ trouble, host.openFault = some trouble → trouble.IsOrdinary)
    (h : fault.isA .systemExit = true) :
    ((s.disassemble unit).exec host).1 = .error fault ↔
      ∃ resource made, s.makeFile unit host = (.ok resource, made) ∧
        s.backend.LoadingStops root (toolStart made) fault := by
  have hstop := Fault.not_ordinary_of_exit h
  rw [stop_iff_invoke hroot hinvoker hopen hstop]
  refine exists_congr fun resource => exists_congr fun made => and_congr_right fun _ => ?_
  rw [Invocation.invoke_stop_iff hstop, h]
  exact or_iff_left fun hcall => Bool.noConfusion hcall.1

/-- Where the entry point is called, a disassembly ends in the verdict on what was captured and on
what the ending of the call means. -/
theorem disassemble_of_callEnds {ending : Except Fault Unit} {ended : Host}
    (hroot : s.configuration.toolPath = some root) (hinvoker : s.invoker = Invocation.invoke)
    (hmake : s.makeFile unit host = (.ok resource, made))
    (hends : s.backend.CallEnds root (s.backend.argumentsFor resource.path) (toolStart made)
      ending ended) :
    ((s.disassemble unit).exec host).1 =
      s.verdict unit root ⟨(ended.console.finish made.console.begin.1).textOf made.console.begin.1,
        Invocation.settle s.backend.signals ending⟩ := by
  have hresult := disassemble_result hroot unit host
  rw [hmake] at hresult
  obtain ⟨hending, hconsole⟩ := Invocation.invoke_of_callEnds hends
  have hfinished : s.finishedOf root resource made =
      ⟨(ended.console.finish made.console.begin.1).textOf made.console.begin.1,
        Invocation.settle s.backend.signals ending⟩ := by
    unfold finishedOf toolEnd finishCapture
    rw [hinvoker, hending]
    simp only [hconsole]
  simp only [hfinished] at hresult
  exact hresult

/-- **Which requests to exit come out of a disassembly.**  One does exactly if the class file was
made, loading the modules of the tool ended in that very request, and the tool could be closed then.
A request that the entry point raises counts as success if a benign signal describes it.  Otherwise
it becomes the failure of a tool that exited, or, if its code cannot be written, the trouble with
that; of both the only kind of outcome is a failure, and there is such an outcome unless a failure
in the history of the request cannot be reported. -/
theorem disassemble_exits_iff (s : Service) (unit : ClassUnit) (root : Path) (host : Host)
    (hroot : s.configuration.toolPath = some root) (hinvoker : s.invoker = Invocation.invoke)
    (hopen : ∀ fault, host.openFault = some fault → fault.IsOrdinary) :
    let result := ((s.disassemble unit).exec host).1
    (∀ fault, fault.isA .systemExit = true →
      (result = .error fault ↔
        ∃ resource made, s.makeFile unit host = (.ok resource, made) ∧
          s.backend.LoadingStops root (toolStart made) fault)) ∧
    ∀ resource made request ended, s.makeFile unit host = (.ok resource, made) →
      s.backend.CallEnds root (s.backend.argumentsFor resource.path) (toolStart made)
        (.error request) ended → request.isA .systemExit = true →
      let captured := (ended.console.finish made.console.begin.1).textOf made.console.begin.1
      (∀ signal, Signal.find? s.backend.signals request = some signal →
        result = .ok (Outcome.success captured)) ∧
      (Signal.find? s.backend.signals request = none →
        result = s.classifier.classify (Invocation.exitFault request) unit.name (some root)
          captured ∧
        (request.exitCode.demandWritten = .ok () → Invocation.exitFault request =
          { kind := .toolExitError, args := [request.exitCode], cause := some request,
            context := some request }) ∧
        (∀ outcome, result = .ok outcome → outcome.kind = .failure) ∧
        (request.cause = none → request.context = none → ∃ outcome, result = .ok outcome)) := by
  intro result
  refine ⟨fun fault hexit => exit_iff_loadingStops hroot hinvoker hopen hexit, ?_⟩
  intro resource made request ended hmake hends hexit captured
  have hresult : result = _ := disassemble_of_callEnds hroot hinvoker hmake hends
  refine ⟨fun signal hsignal => ?_, fun hnone => ?_⟩
  · rw [hresult]
    simp only [verdict, Invocation.settle, hexit, if_true, hsignal]
    rfl
  · have hclassified : result =
        s.classifier.classify (Invocation.exitFault request) unit.name (some root) captured := by
      rw [hresult]
      have hfailure := Invocation.kindOf_exitFault request
      have hordinary : (Invocation.exitFault request).kind.isOrdinary = true :=
        (Invocation.exitFault_own request).ordinary
      simp only [verdict, Invocation.settle, hexit, if_true, hnone, hordinary]
      exact handled_eq_classify (by rw [hfailure]; nofun)
    refine ⟨hclassified, fun hwritten => ?_, fun outcome ho => ?_, fun hcause hcontext => ?_⟩
    · rw [Invocation.exitFault, hwritten]
    · rw [hclassified] at ho
      rw [Classifier.classify_kind ho, Invocation.kindOf_exitFault]
    · rw [hclassified]
      exact classify_exitFault hexit hcause hcontext

/-- A class file is made on the host, and what loading the tool's module from the root of the disk
comes to then passes a test, with no module loaded in the end. -/
def loadingPasses (s : Service) (unit : ClassUnit) (host : Host) (tools : ModuleTools)
    (test : Except Fault Unit → Bool) : Bool :=
  let made := (s.makeFile unit host).2
  let ending :=
    (Import.loadModule tools.entry.module).exec (tools.openedHost ⟨.root, []⟩ (toolStart made))
  (s.makeFile unit host).1.toOption.isSome && made.disk.cwd.isEmpty && made.disk.denied.isEmpty &&
    tools.isFound made.disk ⟨.root, []⟩ && test ending.1 && ending.2.modules.loaded.isEmpty

/-- What a module of a tool in the root of the disk raises stops the loading. -/
theorem loadingStops_of_passes {s : Service} {unit : ClassUnit} {host : Host} {entry : EntryPoint}
    {entryText : String} {test : Except Fault Unit → Bool}
    (hb : s.backend.engine = .module entry entryText) (htest : ∀ m, test (.ok m) = false)
    (h : s.loadingPasses unit host ⟨⟨.root, []⟩, entry, entryText⟩ test = true) :
    ∃ resource made fault, s.makeFile unit host = (.ok resource, made) ∧
      test (.error fault) = true ∧
      s.backend.LoadingStops ⟨.root, []⟩ (toolStart made) fault := by
  rcases hmake : s.makeFile unit host with ⟨result, made⟩
  simp only [loadingPasses, hmake, Bool.and_eq_true] at h
  obtain ⟨⟨⟨⟨⟨hresource, hcwd⟩, hdenied⟩, hfound⟩, hload⟩, hempty⟩ := h
  cases result with
  | error trouble => cases hresource
  | ok resource =>
    rcases hexec : (Import.loadModule entry.module).exec ((⟨⟨.root, []⟩, entry, entryText⟩ :
      ModuleTools).openedHost ⟨.root, []⟩ (toolStart made)) with ⟨fault | m, loaded⟩
    · rw [hexec] at hload hempty
      refine ⟨resource, made, fault, rfl, hload, ?_⟩
      unfold Backend.LoadingStops
      rw [hb]
      refine ⟨⟨.root, []⟩, loaded, ?_, hfound, hexec, fun entry hmem => ?_⟩
      · exact ModuleTools.checkedRoot_top _ _ (List.isEmpty_iff.mp hcwd) (List.isEmpty_iff.mp hdenied)
      · rw [List.isEmpty_iff.mp hempty] at hmem
        cases hmem
    · rw [hexec, htest] at hload
      cases hload

/-- Whether a step ended in a request to exit. -/
def exits {α : Type} : Except Fault α → Bool
  | .error fault => fault.isA .systemExit
  | .ok _ => false

/-- A tool whose module asks to exit with status zero while it is loaded. -/
theorem disassemble_exits_on_loading :
    let s : Service := {
      backend := { engine := .module ⟨"javap", "main"⟩ "javap:main", label := "Tool",
                   arguments := [] }
      configuration := { toolPath := some ⟨.root, []⟩, tempDirectory := some ⟨.root, []⟩ } }
    let script : Script := { onLoad := [.exit (.int 0)] }
    let host : Host := {
      disk := { tree := ⟨[(["javap.py"], .file (.script script) 0o644)]⟩ } }
    ∃ fault, fault.isA .systemExit = true ∧
      ((s.disassemble ⟨[], "Foo"⟩).exec host).1 = .error fault := by
  intro s script host
  obtain ⟨resource, made, fault, hmake, hexit, hstops⟩ :
      ∃ resource made fault, s.makeFile ⟨[], "Foo"⟩ host = (.ok resource, made) ∧
        exits (.error fault : Except Fault Unit) = true ∧
        s.backend.LoadingStops ⟨.root, []⟩ (toolStart made) fault :=
    loadingStops_of_passes rfl (fun _ => rfl) (by decide +kernel)
  have h := disassemble_exits_iff s ⟨[], "Foo"⟩ ⟨.root, []⟩ host rfl rfl
    (by intro fault hf; cases hf)
  exact ⟨fault, hexit, (h.1 fault hexit).mpr ⟨resource, made, hmake, hstops⟩⟩

end Service

end Dissect
