/-
# How an invocation ends

An invocation opens the tool, calls its entry point and closes the tool again.  What the call ended
in decides what the invocation ends in: a failure that a benign signal describes is a normal end if
it is a request to exit or an ordinary failure, any other request to exit becomes the failure of a
tool that exited, as far as its code can be written, and everything else comes out as it is, a
request to stop even where a signal names its class (`Invocation.invoke_ends`).

The scope of the tool is kept by a generator, and generators treat some failures in a way of their
own: a stop of iteration that would leave one turns into another failure, and the manager of the
scope has to tell whether a failure of that other class is the one that it passed in.  Section 1
models this protocol and proves that it does not show.

What does show is a scope that cannot be closed.  A module whose file leads into a loop of links
stops the unloading: the failure about the loop is then what the invocation ends in, also where
nothing was raised, and the module stays loaded.
-/
import Dissect.Proofs.Endings

namespace Dissect

/-! ## 1. Scopes that a generator keeps -/

/-- What comes out of a generator into which a failure was thrown: that very failure, one that it is
the cause of, or another one. -/
inductive Emerged where
  | thrown
  | wrapper (fault : Fault)
  | other (fault : Fault)

namespace Run

variable {α : Type}

/-- Goes on with a generator that waits in the middle of a scope, up to its end. -/
def resume (last : Run Unit) : Run Unit := do
  match ← attempt last with
  | .ok () => return ()
  | .error fault => throw fault.outOfGenerator

/-- Throws a failure into a generator that waits in the middle of a scope.  The last part of the
scope is carried out, and unless it fails the failure goes on. -/
def throwInto (last : Run Unit) (thrown : Fault) : Run Emerged := do
  match ← attempt last with
  | .error fault => return .other (fault.during thrown).outOfGenerator
  | .ok () =>
    return if thrown.kind.isA .stopIteration then .wrapper thrown.strayStop else .thrown

/-- A step in a scope that a generator keeps.  A failure of the step is thrown into the generator,
and goes on if it comes out again; a stop of iteration also does if what comes out was caused by
it. -/
def managed (step : Run α) (last : Run Unit) : Run α := do
  match ← attempt step with
  | .ok a => do
    resume last
    return a
  | .error fault => do
    match ← throwInto last fault with
    | .thrown => throw fault
    | .wrapper stray => throw (if fault.kind.isA .stopIteration then fault else stray)
    | .other trouble => throw trouble

theorem followedBy_exec (step : Run α) (last : Run Unit) (host : Host) :
    (followedBy step last).exec host =
      match last.exec (step.exec host).2, (step.exec host).1 with
      | (.ok (), after), result => (result, after)
      | (.error fault, after), .ok _ => (.error fault, after)
      | (.error fault, after), .error earlier => (.error (fault.during earlier), after) := rfl

theorem resume_exec (last : Run Unit) (host : Host) :
    (resume last).exec host =
      match last.exec host with
      | (.ok (), after) => (.ok (), after)
      | (.error fault, after) => (.error fault.outOfGenerator, after) := by
  unfold resume
  rw [exec_bind_ok (exec_attempt last host)]
  rcases last.exec host with ⟨_ | _, after⟩ <;> rfl

theorem throwInto_exec (last : Run Unit) (thrown : Fault) (host : Host) :
    (throwInto last thrown).exec host =
      match last.exec host with
      | (.error fault, after) => (.ok (.other (fault.during thrown).outOfGenerator), after)
      | (.ok (), after) =>
        (.ok (if thrown.kind.isA .stopIteration then .wrapper thrown.strayStop else .thrown),
          after) := by
  unfold throwInto
  rw [exec_bind_ok (exec_attempt last host)]
  rcases last.exec host with ⟨_ | _, after⟩ <;> rfl

/-- A failure that is no stop of iteration leaves a generator as it is. -/
theorem outOfGenerator_eq {fault : Fault} (h : fault.kind.isA .stopIteration = false) :
    fault.outOfGenerator = fault := by
  simp [Fault.outOfGenerator, h]

/-- **The protocol of generators does not show** where the last part of the scope never stops an
iteration: every failure of the step comes out as it is, stops of iteration included. -/
theorem managed_eq_followedBy (step : Run α) {last : Run Unit}
    (hlast : last.Fails fun fault => fault.kind.isA .stopIteration = false) :
    managed step last = followedBy step last := by
  funext host
  show (managed step last).exec host = (followedBy step last).exec host
  rw [followedBy_exec]
  unfold managed
  rw [exec_bind_ok (exec_attempt step host)]
  rcases step.exec host with ⟨fault | a, after⟩
  · have hthrow := throwInto_exec last fault after
    rcases hend : last.exec after with ⟨trouble | _, closed⟩
    · have hkind : (trouble.during fault).kind.isA .stopIteration = false := by
        rw [kind_during]
        exact hlast after trouble (by rw [hend])
      rw [hend] at hthrow
      simp only [exec_bind_ok hthrow, outOfGenerator_eq hkind]
      rfl
    · rw [hend] at hthrow
      simp only [exec_bind_ok hthrow]
      cases fault.kind.isA .stopIteration <;> rfl
  · have hresume := resume_exec last after
    rcases hend : last.exec after with ⟨trouble | _, closed⟩
    · have hkind := hlast after trouble (by rw [hend])
      rw [hend] at hresume
      simp only [exec_bind_error hresume, outOfGenerator_eq hkind]
    · rw [hend] at hresume
      simp only [exec_bind_ok hresume]
      rfl

/-- A scope with nothing left to do at its end is no scope. -/
theorem followedBy_pure (step : Run α) : followedBy step (pure ()) = step := rfl

end Run

/-- Closing a tool never stops an iteration. -/
theorem ModuleTools.close_fails (tools : ModuleTools) (root : Path) (before : ModuleTable) :
    (tools.close root before).Fails fun fault => fault.kind.isA .stopIteration = false := by
  intro host fault h
  rcases tools.close_result root before host with ⟨hok, -⟩ | ⟨trouble, htrouble, hkind, -⟩
  · rw [hok] at h
    cases h
  · rw [htrouble] at h
    cases h
    rw [hkind]
    rfl

namespace Invocation

/-- An invocation in a scope that a generator keeps, whichever tool it is. -/
def invokeManaged (b : Backend) (root resource : Path) : Run Unit :=
  match b.engine with
  | .javap => do
    let tools : JavaTools := { root }
    let command ← Run.query tools.command
    let environment ← Run.query tools.environment
    Run.managed
      (watched b.signals (Command.call command environment (b.argumentsFor resource))) (pure ())
  | .module entry entryText => do
    let tools : ModuleTools := { root, entry, entryText }
    let base ← Run.query fun host => tools.checkedRoot host.disk
    let before := (← get).modules
    Import.changeModules (tools.opened base)
    Run.managed
      (tools.within base fun call =>
        watched b.signals (do let _ ← call (b.argumentsFor resource)))
      (tools.close base before)

theorem invoke_eq_managed (b : Backend) (root resource : Path) :
    invoke b root resource = invokeManaged b root resource := by
  rw [invoke_eq]
  unfold invokeManaged
  cases hb : b.engine with
  | javap =>
    have hpure : (pure () : Run Unit).Fails fun fault => fault.kind.isA .stopIteration = false :=
      Run.Fails.pure ()
    simp only [Run.managed_eq_followedBy _ hpure, Run.followedBy_pure]
    exact Backend.withEntry_javap hb root _
  | module entry entryText =>
    simp only [Run.managed_eq_followedBy _ (ModuleTools.close_fails _ _ _)]
    exact Backend.withEntry_module hb root _

end Invocation

/-! ## 2. What an ending means -/

/-- Some of the signals describes the failure. -/
def Signal.Describe (signals : List Signal) (fault : Fault) : Prop :=
  ∃ signal ∈ signals, fault.isA signal.kind = true ∧ signal.accepts fault = true

namespace Signal

variable {signals : List Signal} {fault : Fault}

theorem find?_of_describe (h : Describe signals fault) :
    ∃ signal, find? signals fault = some signal := by
  obtain ⟨signal, hmem, hkind, haccepts⟩ := h
  refine Option.isSome_iff_exists.mp (List.find?_isSome.mpr ⟨signal, hmem, ?_⟩)
  simp [matches?, hkind, haccepts]

theorem find?_of_not_describe (h : ¬ Describe signals fault) : find? signals fault = none := by
  refine List.find?_eq_none.mpr fun signal hmem hmatches => h ⟨signal, hmem, ?_⟩
  simpa [matches?] using hmatches

/-- The default signal describes the requests to exit whose code is nothing or equals zero. -/
theorem describe_cleanExit_iff (h : fault.isA .systemExit = true) :
    Describe [cleanExit] fault ↔ fault.exitCode = .none ∨ fault.exitCode.isZero = true := by
  have hcode : isCleanCode fault.exitCode = true ↔
      fault.exitCode = .none ∨ fault.exitCode.isZero = true := by
    unfold isCleanCode
    cases fault.exitCode <;> simp [Value.isZero]
  rw [← hcode]
  simp [Describe, cleanExit, h]

end Signal

namespace Invocation

open Signal (Describe find?_of_describe find?_of_not_describe)

variable {signals : List Signal} {ending : Except Fault Unit} {fault : Fault}

/-- A failure that a signal describes is a normal end if it is a request to exit or ordinary. -/
theorem settle_of_describe (hclass : fault.isA .systemExit = true ∨ fault.isA .exception = true)
    (h : Describe signals fault) : settle signals (.error fault) = .ok () := by
  obtain ⟨signal, hfind⟩ := find?_of_describe h
  unfold settle
  simp only [hfind]
  rcases hclass with hexit | hordinary
  · rw [if_pos hexit]
  · have hkind : fault.kind.isOrdinary = true := hordinary
    rw [if_pos hkind, ite_self]

/-- Any other request to exit is a tool that exited. -/
theorem settle_exit (hexit : fault.isA .systemExit = true) (h : ¬ Describe signals fault) :
    settle signals (.error fault) = .error (exitFault fault) := by
  simp only [settle, if_pos hexit, find?_of_not_describe h]

/-- Every other failure stays what it is. -/
theorem settle_other (hexit : fault.isA .systemExit = false)
    (h : ¬ (fault.isA .exception = true ∧ Describe signals fault)) :
    settle signals (.error fault) = .error fault := by
  unfold settle
  simp only [hexit, Bool.false_eq_true, if_false]
  by_cases hordinary : fault.kind.isOrdinary = true
  · rw [if_pos hordinary, find?_of_not_describe fun hd => h ⟨hordinary, hd⟩]
  · rw [if_neg hordinary]

/-- **The normal ends.** -/
theorem settle_ok_iff : settle signals ending = .ok () ↔
    ending = .ok () ∨ ∃ fault, ending = .error fault ∧
      (fault.isA .systemExit = true ∨ fault.isA .exception = true) ∧
        Describe signals fault := by
  constructor
  · intro h
    cases ending with
    | ok _ => exact .inl rfl
    | error fault =>
      refine .inr ⟨fault, rfl, ?_⟩
      by_cases hexit : fault.isA .systemExit = true
      · refine ⟨.inl hexit, Classical.byContradiction fun hno => ?_⟩
        rw [settle_exit hexit hno] at h
        cases h
      · refine Classical.byContradiction fun hno => ?_
        rw [settle_other (Bool.eq_false_iff.mpr hexit) fun hd => hno ⟨.inr hd.1, hd.2⟩] at h
        cases h
  · rintro (rfl | ⟨fault, rfl, hclass, hdescribe⟩)
    · rfl
    · exact settle_of_describe hclass hdescribe

end Invocation

/-! ## 3. Leaving the tool -/

namespace ModuleTools

variable {tools : ModuleTools} {disk : Files.Disk} {root : Path} {before t : ModuleTable}

/-- The scope of the tool has been closed: the search path is the one from before, every module of
the host is bound as before, and what is new neither belongs to the tool nor was loaded from under
its root. -/
structure Closed (tools : ModuleTools) (disk : Files.Disk) (root : Path)
    (before after : ModuleTable) : Prop where
  searchPath : after.searchPath = before.searchPath
  bound : ∀ name m, before.get? name = some m → after.get? name = some m
  new : ∀ name m, before.get? name = none → after.get? name = some m →
    tools.owns name = false ∧ ∀ file path, m.origin = some file →
      disk.resolve (Path.ofText file) = .ok path → path.isWithin root = false

/-- The scope of the tool could not be closed: a new module is still loaded whose file leads into a
loop. -/
structure Stuck (tools : ModuleTools) (disk : Files.Disk) (before after : ModuleTable) : Prop where
  searchPath : after.searchPath = before.searchPath
  remains : ∃ entry ∈ after.loaded, tools.owns entry.1 = false ∧
    before.contains entry.1 = false ∧
      ∃ file, entry.2.origin = some file ∧ LeadsIntoLoop disk file

theorem closed_of_resolvable (hd : Assoc.Distinct before.loaded)
    (hg : ModuleTable.Grown (tools.opened root before) t) (hr : tools.Resolvable disk before t) :
    tools.Closed disk root before (tools.closedModules disk root before t) where
  searchPath := rfl
  bound := fun _ _ hm => get?_closedModules hd hg hr hm
  new := fun name m hb hm => by
    obtain ⟨ho, hfrom⟩ := new_of_closedModules hd hr hb hm
    exact ⟨ho, fun _ _ hfile hpath => not_isWithin_of_loadedFrom hfrom hfile hpath⟩

/-- A sweep that stops leaves the module at which it stops. -/
theorem remains_of_sweep {loaded : List (String × Module)}
    (h : (tools.sweep disk root before loaded).2.isSome = true) :
    ∃ entry ∈ (tools.sweep disk root before loaded).1, ∃ trouble,
      tools.unloads disk root before entry.1 entry.2 = .error trouble := by
  induction loaded with
  | nil => cases h
  | cons entry rest ih =>
    obtain ⟨name, m⟩ := entry
    rcases hu : tools.unloads disk root before name m with trouble | goes
    · simp only [sweep, hu]
      exact ⟨(name, m), List.mem_cons_self, trouble, hu⟩
    · cases goes with
      | true =>
        simp only [sweep, hu] at h ⊢
        exact ih h
      | false =>
        simp only [sweep, hu] at h ⊢
        obtain ⟨kept, hmem, hfails⟩ := ih h
        exact ⟨kept, List.mem_cons_of_mem _ hmem, hfails⟩

theorem stuck_of_not_resolvable (hr : ¬ tools.Resolvable disk before t) :
    tools.Stuck disk before (tools.closedModules disk root before t) := by
  refine ⟨rfl, ?_⟩
  have hstop : (tools.sweep disk root before t.loaded).2.isSome = true :=
    sweep_stops fun h => hr (settles_iff.mp h)
  obtain ⟨⟨name, m⟩, hmem, trouble, hfails⟩ := remains_of_sweep hstop
  refine ⟨(name, m), ?_, ?_⟩
  · unfold closedModules
    simp only [hstop, if_true]
    exact hmem
  · unfold unloads at hfails
    cases ho : tools.owns name with
    | true => simp [ho] at hfails
    | false =>
      cases hb : before.contains name with
      | true => simp [ho, hb] at hfails
      | false =>
        simp only [ho, hb, Bool.false_eq_true, if_false] at hfails
        refine ⟨rfl, rfl, Classical.byContradiction fun hno => ?_⟩
        obtain ⟨inside, hinside⟩ : ∃ inside, loadedFrom disk root m = .ok inside :=
          (loadedFrom_ok_iff root).mpr fun file hfile hloop => hno ⟨file, hfile, hloop⟩
        rw [hinside] at hfails
        cases hfails

end ModuleTools

namespace Backend

/-- The tool is opened on a host, and a call of its entry point ends in a way, on another host. -/
def Calls (b : Backend) (root : Path) (arguments : List String) (host : Host)
    (ending : Except Fault Unit) (ended : Host) : Prop :=
  match b.engine with
  | .javap =>
    ∃ command environment, ({ root } : JavaTools).command host = .ok command ∧
      ({ root } : JavaTools).environment host = .ok environment ∧
      (Command.call command environment arguments).exec host = (ending, ended)
  | .module entry entryText =>
    let tools : ModuleTools := { root, entry, entryText }
    ∃ base actions entered, tools.checkedRoot host.disk = .ok base ∧
      (tools.enter base).exec (tools.openedHost base host) = (.ok actions, entered) ∧
      (do let _ ← Import.callRoutine entry.module actions arguments : Run Unit).exec entered =
        (ending, ended)

/-- What the tool has loaded can all be told when it is to be closed. -/
def Closable (b : Backend) (root : Path) (host ended : Host) : Prop :=
  match b.engine with
  | .javap => True
  | .module entry entryText =>
    ({ root, entry, entryText } : ModuleTools).Resolvable ended.disk host.modules ended.modules

/-- The scope of the tool has been closed and nothing else is different from when the call was over.
A Java installation has nothing to close. -/
def Closed (b : Backend) (root : Path) (host ended after : Host) : Prop :=
  match b.engine with
  | .javap => after = ended
  | .module entry entryText =>
    let tools : ModuleTools := { root, entry, entryText }
    ∃ base modules, tools.checkedRoot host.disk = .ok base ∧ after = { ended with modules } ∧
      tools.Closed ended.disk base host.modules modules

/-- The scope of the tool could not be closed. -/
def Stuck (b : Backend) (root : Path) (host ended after : Host) : Prop :=
  match b.engine with
  | .javap => False
  | .module entry entryText =>
    ({ root, entry, entryText } : ModuleTools).Stuck ended.disk host.modules after.modules

end Backend

namespace Invocation

open ModuleTools (openedHost closedModules close_exec)

variable {b : Backend} {root resource : Path} {host ended : Host} {ending : Except Fault Unit}

/-- The use that an invocation makes of a tool changes the modules by calling the entry point
only. -/
theorem leavesModules_watched (signals : List Signal) (arguments : List String) :
    ModuleTools.LeavesModules fun (call : List String → Run Value) =>
      watched signals (do let _ ← call arguments) := fun _ _ hcall =>
  ((hcall arguments).bind fun _ => Run.Keeps.pure ()).attempt.bind fun _ => Run.Keeps.ofExcept _

/-- An invocation of a tool made of modules ends in what the call of the entry point means, followed
by the closing of the tool. -/
theorem invoke_entered {entry : EntryPoint} {entryText : String} {base : Path}
    {actions : List Action} {entered : Host} (hb : b.engine = .module entry entryText)
    (hbase : ({ root, entry, entryText } : ModuleTools).checkedRoot host.disk = .ok base)
    (henter : (({ root, entry, entryText } : ModuleTools).enter base).exec
      (openedHost { root, entry, entryText } base host) = (.ok actions, entered))
    (hcall : (do let _ ← Import.callRoutine entry.module actions (b.argumentsFor resource) :
      Run Unit).exec entered = (ending, ended)) :
    let tools : ModuleTools := { root, entry, entryText }
    ∃ step, (invoke b root resource).exec host =
        (Run.followedBy step (tools.close base host.modules)).exec (tools.openedHost base host) ∧
      step.exec (tools.openedHost base host) = (settle b.signals ending, ended) ∧
      ModuleTable.Grown (tools.opened base host.modules) ended.modules := by
  intro tools
  have hwithin : (tools.within base fun call =>
      watched b.signals (do let _ ← call (b.argumentsFor resource))).exec
        (tools.openedHost base host) = (settle b.signals ending, ended) := by
    rw [ModuleTools.within_exec henter, watched_exec, hcall]
  have hgrown : ModuleTable.Grown (tools.opened base host.modules) _ :=
    ModuleTools.grown_scopeEnd base
      (leavesModules_watched b.signals (b.argumentsFor resource)) host
  unfold ModuleTools.scopeEnd at hgrown
  rw [hwithin] at hgrown
  refine ⟨_, ?_, hwithin, hgrown⟩
  rw [invoke_eq, Backend.withEntry_module hb, ModuleTools.withEntry_exec hbase]

/-- Where the tool can be closed, the invocation ends in what the ending of the call means, and its
scope has been closed. -/
theorem invoke_of_closable (hdistinct : Assoc.Distinct host.modules.loaded)
    (hcall : b.Calls root (b.argumentsFor resource) host ending ended)
    (hclosable : b.Closable root host ended) :
    ((invoke b root resource).exec host).1 = settle b.signals ending ∧
      b.Closed root host ended ((invoke b root resource).exec host).2 := by
  unfold Backend.Calls at hcall
  unfold Backend.Closable at hclosable
  unfold Backend.Closed
  cases hb : b.engine with
  | javap =>
    simp only [hb] at hcall ⊢
    obtain ⟨command, environment, hcommand, henvironment, hends⟩ := hcall
    have hquery := Run.exec_query ({ root } : JavaTools).command host
    have hquery' := Run.exec_query ({ root } : JavaTools).environment host
    rw [hcommand] at hquery
    rw [henvironment] at hquery'
    rw [invoke_eq, Backend.withEntry_javap hb, JavaTools.withEntry, Run.exec_bind_ok hquery,
      Run.exec_bind_ok hquery', watched_exec, hends]
    exact ⟨rfl, rfl⟩
  | module entry entryText =>
    simp only [hb] at hcall hclosable ⊢
    obtain ⟨base, actions, entered, hbase, henter, hends⟩ := hcall
    obtain ⟨step, hinvoke, hstep, hgrown⟩ := invoke_entered hb hbase henter hends
    rcases ModuleTools.close_result { root, entry, entryText } base host.modules ended with
      ⟨hok, -⟩ | ⟨trouble, -, -, hno⟩
    · rw [hinvoke, Run.exec_followedBy_result, Run.exec_followedBy_host, hstep, hok, close_exec]
      exact ⟨rfl, base, _, hbase, rfl,
        ModuleTools.closed_of_resolvable hdistinct hgrown hclosable⟩
    · exact absurd hclosable hno

/-- Where it cannot, the invocation ends in the failure about the loop, whatever was raised. -/
theorem invoke_of_not_closable (hcall : b.Calls root (b.argumentsFor resource) host ending ended)
    (hclosable : ¬ b.Closable root host ended) :
    (∃ fault, ((invoke b root resource).exec host).1 = .error fault ∧
        fault.kind = .runtimeError) ∧
      b.Stuck root host ended ((invoke b root resource).exec host).2 := by
  unfold Backend.Calls at hcall
  unfold Backend.Closable at hclosable
  unfold Backend.Stuck
  cases hb : b.engine with
  | javap => simp only [hb, not_true] at hclosable
  | module entry entryText =>
    simp only [hb] at hcall hclosable ⊢
    obtain ⟨base, actions, entered, hbase, henter, hends⟩ := hcall
    obtain ⟨step, hinvoke, hstep, -⟩ := invoke_entered hb hbase henter hends
    rcases ModuleTools.close_result { root, entry, entryText } base host.modules ended with
      ⟨-, hok⟩ | ⟨trouble, htrouble, hkind, -⟩
    · exact absurd hok hclosable
    · rw [hinvoke, Run.exec_followedBy_result, Run.exec_followedBy_host, hstep, htrouble,
        close_exec]
      refine ⟨?_, ModuleTools.stuck_of_not_resolvable hclosable⟩
      cases settle b.signals ending with
      | ok _ => exact ⟨_, rfl, hkind⟩
      | error earlier => exact ⟨_, rfl, (Run.kind_during trouble earlier).trans hkind⟩

/-! ## 4. The outcome -/

/-- **How an invocation ends**, given how the call of the entry point ended, for any arguments and
any signals.  The scope is one that a generator keeps.  If what the tool has loaded can all be told,
the scope has been closed, and:

* the invocation ends normally exactly if nothing was raised, or a request to exit or an ordinary
  failure that some signal describes;
* any other request to exit becomes the failure of a tool that exited, with its code, caused by it,
  or, if the code cannot be written, the trouble with that, which arose while it was handled;
* every other failure comes out as it is, a request to stop also where a signal names its class.

With the default signal a request to exit is a normal end exactly if its code is nothing or equals
zero.  If something that the tool has loaded cannot be told, the invocation ends in the failure about
that, whatever was raised, and the scope has not been closed. -/
theorem invoke_ends (hdistinct : Assoc.Distinct host.modules.loaded)
    (hcall : b.Calls root (b.argumentsFor resource) host ending ended) :
    let outcome := (invoke b root resource).exec host
    invoke b root resource = invokeManaged b root resource ∧
    (b.Closable root host ended →
      b.Closed root host ended outcome.2 ∧
      (outcome.1 = .ok () ↔ ending = .ok () ∨ ∃ fault, ending = .error fault ∧
        (fault.isA .systemExit = true ∨ fault.isA .exception = true) ∧
          Signal.Describe b.signals fault) ∧
      (∀ fault, ending = .error fault → fault.isA .systemExit = true →
        ¬ Signal.Describe b.signals fault →
          (fault.exitCode.demandWritten = .ok () → ∃ exited, outcome.1 = .error exited ∧
            exited.kind = .toolExitError ∧ exited.args = [fault.exitCode] ∧
              exited.cause = some fault) ∧
          ∀ trouble, fault.exitCode.demandWritten = .error trouble →
            outcome.1 = .error (trouble.whileHandling fault)) ∧
      (∀ fault, ending = .error fault → fault.isA .systemExit = false →
        ¬ (fault.isA .exception = true ∧ Signal.Describe b.signals fault) →
          outcome.1 = .error fault) ∧
      (b.signals = [Signal.cleanExit] → ∀ fault, ending = .error fault →
        fault.isA .systemExit = true →
          (outcome.1 = .ok () ↔ fault.exitCode = .none ∨ fault.exitCode.isZero = true))) ∧
    (¬ b.Closable root host ended →
      (∃ fault, outcome.1 = .error fault ∧ fault.kind = .runtimeError) ∧
        b.Stuck root host ended outcome.2) := by
  intro outcome
  refine ⟨invoke_eq_managed b root resource, fun hclosable => ?_,
    fun hclosable => invoke_of_not_closable hcall hclosable⟩
  obtain ⟨hresult, hclosed⟩ := invoke_of_closable hdistinct hcall hclosable
  have houtcome : outcome.1 = settle b.signals ending := hresult
  refine ⟨hclosed, ?_, ?_, ?_, ?_⟩
  · rw [houtcome, settle_ok_iff]
  · intro fault hending hexit hno
    have hsettled : outcome.1 = .error (exitFault fault) := by
      rw [houtcome, hending, settle_exit hexit hno]
    unfold exitFault at hsettled
    refine ⟨fun hwritten => ?_, fun trouble htrouble => ?_⟩
    · rw [hwritten] at hsettled
      exact ⟨_, hsettled, rfl, rfl, rfl⟩
    · rw [htrouble] at hsettled
      exact hsettled
  · intro fault hending hexit hno
    rw [houtcome, hending, settle_other hexit hno]
  · intro hsignals fault hending hexit
    rw [houtcome, settle_ok_iff, hending, hsignals, ← Signal.describe_cleanExit_iff hexit]
    simp [hexit]

/-- The member is a routine that raises a failure of a class and does nothing else. -/
def onlyRaises (kind : FaultClass) : Member → Bool
  | .routine [.raise fault] => fault.kind == kind
  | _ => false

/-- A tool whose entry point is interrupted, with a signal that names every class: the interrupt
comes out. -/
theorem invoke_interrupted :
    let b : Backend := {
      engine := .module ⟨"javap", "main"⟩ "javap:main", label := "Tool", arguments := ["-c"],
      signals := [{ kind := .baseException }] }
    let script : Script :=
      { members := [("main", .routine [.raise { kind := .keyboardInterrupt }])] }
    let host : Host := {
      disk := { tree := ⟨[(["javap.py"], .file (.script script) 0o644)]⟩ } }
    ∃ ended fault, b.Calls ⟨.root, []⟩ (b.argumentsFor ⟨.root, ["Foo.class"]⟩) host
        (.error fault) ended ∧
      fault.kind = .keyboardInterrupt ∧ Signal.Describe b.signals fault ∧
      ((invoke b ⟨.root, []⟩ ⟨.root, ["Foo.class"]⟩).exec host).1 = .error fault := by
  intro b script host
  let tools : ModuleTools := ⟨⟨.root, []⟩, ⟨"javap", "main"⟩, "javap:main"⟩
  have hrun : (let load := (Import.loadModule "javap").exec (tools.openedHost ⟨.root, []⟩ host)
      load.1.toBool && tools.isFound host.disk ⟨.root, []⟩ &&
      (load.2.modules.get? "javap").any (fun m => m.origin == some "/javap.py" &&
        (m.member? "main").any (onlyRaises .keyboardInterrupt)) &&
      (Files.linkAt? load.2.disk ⟨.root, ["javap.py"]⟩).isNone &&
      (load.2.disk.stat "/javap.py").toBool &&
      load.2.modules.loaded.all fun entry => tools.owns entry.1) = true := by decide +kernel
  rcases hload : (Import.loadModule "javap").exec (tools.openedHost ⟨.root, []⟩ host) with
    ⟨_ | _, loaded⟩
  · simp [hload, Except.toBool] at hrun
  simp only [hload, Bool.and_eq_true, Option.isNone_iff_eq_none] at hrun
  obtain ⟨⟨⟨⟨⟨-, hfound⟩, hmodule⟩, hlink⟩, hthere⟩, howned⟩ := hrun
  obtain ⟨m, hget, hmember⟩ := (Option.any_eq_true _ _).mp hmodule
  simp only [Bool.and_eq_true, beq_iff_eq] at hmember
  obtain ⟨member, hlookup, hraises⟩ := (Option.any_eq_true _ _).mp hmember.2
  unfold onlyRaises at hraises
  split at hraises
  · rename_i fault
    have hresolve : loaded.disk.resolve (Path.ofText "/javap.py") = .ok ⟨.root, ["javap.py"]⟩ :=
      Files.Disk.resolve_name (by decide) (by decide) hlink hthere
    have hcall : b.Calls ⟨.root, []⟩ (b.argumentsFor ⟨.root, ["Foo.class"]⟩) host
        (.error fault.afterRaise) loaded :=
      ⟨⟨.root, []⟩, [.raise fault], loaded, ModuleTools.checkedRoot_top _ _ rfl rfl,
        ModuleTools.enter_of_module hfound hload hget hmember.1 hresolve rfl hlookup, rfl⟩
    have hkind : fault.afterRaise.kind = .keyboardInterrupt := beq_iff_eq.mp hraises
    have hclosable : b.Closable ⟨.root, []⟩ host loaded := by
      intro entry hm ho
      rw [List.all_eq_true.mp howned entry hm] at ho
      cases ho
    have hends := (invoke_ends (by unfold Assoc.Distinct; decide) hcall).2.1 hclosable
    refine ⟨loaded, _, hcall, hkind, ⟨_, List.mem_cons_self, ?_, rfl⟩,
      hends.2.2.2.1 _ rfl ?_ fun hno => ?_⟩
    · rw [Fault.isA, hkind]
      rfl
    · rw [Fault.isA, hkind]
      rfl
    · have hordinary := hno.1
      rw [Fault.isA, hkind] at hordinary
      cases hordinary
  · cases hraises

end Invocation

end Dissect
