/-
# Fresh copies of a tool

Closing a tool unloads what was loaded from under its root, so that the next call loads it anew.  It
does so for the tool's own names, and for the new modules whose file lies under the root once links
are replaced.  A new module that has no file, such as a package that is a directory without an
initial file, is not among them, and neither is one whose file is a link that leads out of the root:
these stay loaded, and the next call finds them there.

`disassemble_starts_afresh` says that nothing else can go wrong.  The next call finds every name
bound as the first call did exactly if the first call loaded no such module, and then it ends as the
first call would have ended with the name that the next class file is given.
-/
import Dissect.Proofs.Endings
import Dissect.Proofs.TwinRuns

namespace Dissect

open Files (Disk)
open ModuleTable (Grown)

/-! ## 1. What closing a tool leaves -/

namespace ModuleTools

variable {tools : ModuleTools} {disk : Disk} {root : Path} {before t : ModuleTable}

/-- **The new modules from outside the tool's package come from under the root**: each has a file,
whose path lies under the root once links are replaced. -/
def AllUnder (tools : ModuleTools) (disk : Disk) (root : Path) (before t : ModuleTable) : Prop :=
  ∀ entry ∈ t.loaded, tools.owns entry.1 = false → before.contains entry.1 = false →
    ∃ file path, entry.2.origin = some file ∧ disk.resolve (Path.ofText file) = .ok path ∧
      path.isWithin root = true

theorem loadedFrom_true_iff {m : Module} :
    loadedFrom disk root m = .ok true ↔
      ∃ file path, m.origin = some file ∧ disk.resolve (Path.ofText file) = .ok path ∧
        path.isWithin root = true := by
  unfold loadedFrom
  cases ho : m.origin with
  | none =>
    constructor
    · intro h
      cases h
    · rintro ⟨file, path, h, -⟩
      cases h
  | some file =>
    cases hr : disk.resolve (Path.ofText file) with
    | error fault =>
      simp only [liesUnder, hr, bind, Except.bind]
      constructor
      · intro h
        split at h <;> cases h
      · rintro ⟨file', path, hf, hpath, -⟩
        cases hf
        rw [hr] at hpath
        cases hpath
    | ok path =>
      simp only [liesUnder, hr, bind, Except.bind, pure, Except.pure, Except.ok.injEq]
      constructor
      · exact fun h => ⟨file, path, rfl, hr, h⟩
      · rintro ⟨file', path', hf, hpath, hwithin⟩
        cases hf
        rw [hr] at hpath
        cases hpath
        exact hwithin

/-- Such modules can all be told to go. -/
theorem AllUnder.unloads (h : tools.AllUnder disk root before t) {entry : String × Module}
    (hm : entry ∈ t.loaded) :
    tools.unloads disk root before entry.1 entry.2 =
      .ok (tools.owns entry.1 || !before.contains entry.1) := by
  unfold ModuleTools.unloads
  cases ho : tools.owns entry.1 with
  | true => rfl
  | false =>
    cases hb : before.contains entry.1 with
    | true => rfl
    | false => exact loadedFrom_true_iff.mpr (h entry hm ho hb)

theorem AllUnder.resolvable (h : tools.AllUnder disk root before t) :
    tools.Resolvable disk before t := by
  have hsettles : tools.Settles disk root before t.loaded := fun _ hm => ⟨_, h.unloads hm⟩
  exact settles_iff.mp hsettles

/-- **Where all new modules come from under the root, the next opening finds the table of the
first.** -/
theorem AllUnder.loaded_opened (h : tools.AllUnder disk root before t)
    (hg : Grown (tools.opened root before) t) (next : Path) :
    (tools.opened next (tools.closedModules disk root before t)).loaded =
      (tools.opened next before).loaded := by
  have hstays : ∀ entry ∈ t.loaded,
      (!tools.owns entry.1 && tools.stays disk root before entry) =
        (tools.opened root before).contains entry.1 := by
    intro entry hm
    rw [contains_opened, stays, h.unloads hm]
    cases tools.owns entry.1 <;> simp
  show (tools.closedModules disk root before t).loaded.filter (fun e => !tools.owns e.1) =
    (tools.opened root before).loaded
  rw [closedModules_loaded h.resolvable, filter_restored, List.filter_filter,
    List.filter_congr hstays, hg.old]

/-- The next opening finds a table that is alike. -/
theorem AllUnder.alike (h : tools.AllUnder disk root before t)
    (hg : Grown (tools.opened root before) t) (next : Path) :
    (tools.opened next before).Alike
      (tools.opened next (tools.closedModules disk root before t)) where
  loaded := by rw [h.loaded_opened hg]
  searchPath := rfl
  resident := hg.resident.symm

/-- A new module that does not come from under the root is still loaded when the tool is closed. -/
theorem remains_of_not_allUnder (h : ¬ tools.AllUnder disk root before t) :
    ∃ name, tools.owns name = false ∧ before.contains name = false ∧
      (tools.closedModules disk root before t).contains name = true := by
  obtain ⟨entry, hm, ho, hb, hfrom⟩ : ∃ entry ∈ t.loaded, tools.owns entry.1 = false ∧
      before.contains entry.1 = false ∧ loadedFrom disk root entry.2 ≠ .ok true := by
    simp only [AllUnder, ← loadedFrom_true_iff] at h
    simpa using h
  refine ⟨entry.1, ho, hb, ModuleTable.contains_of_mem ?_⟩
  have hstays : tools.stays disk root before entry = true := by
    unfold stays ModuleTools.unloads
    rw [ho, hb]
    simp only [Bool.false_eq_true, if_false]
    cases hl : loadedFrom disk root entry.2 with
    | error fault => rfl
    | ok inside =>
      cases inside with
      | false => rfl
      | true => exact absurd hl hfrom
  have hswept := mem_sweep_of_stays hm hstays
  unfold closedModules
  simp only
  split
  · exact hswept
  · -- what is put back concerns the tool's own names only
    have hkept : entry ∈ (tools.sweep disk root before t.loaded).1.filter
        fun e => !tools.owns e.1 := List.mem_filter.mpr ⟨hswept, by simp [ho]⟩
    rw [← filter_restored] at hkept
    exact (List.mem_filter.mp hkept).1

/-- **The next opening finds every name bound as the first did exactly if all new modules come from
under the root.** -/
theorem sees_same_iff (hg : Grown (tools.opened root before) t) :
    (∀ next name, (tools.opened next (tools.closedModules disk root before t)).get? name =
        (tools.opened next before).get? name) ↔ tools.AllUnder disk root before t := by
  constructor
  · intro hsame
    by_cases h : tools.AllUnder disk root before t
    · exact h
    · obtain ⟨name, ho, hb, hc⟩ := remains_of_not_allUnder h
      have hname := congrArg Option.isSome (hsame root name)
      rw [get?_opened, get?_opened, ho] at hname
      exact absurd (hname.symm.trans hc) (by simpa [ModuleTable.contains] using hb)
  · intro h next name
    unfold ModuleTable.get?
    rw [h.loaded_opened hg]

end ModuleTools

/-! ## 2. The run of a tool made of modules -/

namespace Invocation

variable {b : Backend} {entry : EntryPoint} {entryText : String} {root resource : Path}
variable {host other : Host}

/-- How the tool is used: its entry point is called with the class file, and the call is watched. -/
def use (b : Backend) (resource : Path) (call : List String → Run Value) : Run Unit :=
  watched b.signals (do let _ ← call (b.argumentsFor resource))

theorem invoke_module (hb : b.engine = .module entry entryText) (root resource : Path) :
    invoke b root resource =
      ({ root, entry, entryText } : ModuleTools).withEntry (use b resource) := by
  rw [invoke_eq, Backend.withEntry_module hb]
  rfl

theorem use_leavesModules (b : Backend) (resource : Path) :
    ModuleTools.LeavesModules (use b resource) := fun _ _ hcall =>
  ((hcall _).bind fun _ => Run.Keeps.pure _).attempt.bind fun _ => Run.Keeps.ofExcept _

theorem use_alike (b : Backend) (resource : Path) : ModuleTools.UsesAlike (use b resource) :=
  fun _ _ _ hcall =>
    ((hcall _).bind fun _ => Run.Agrees.pure _).attempt.bind fun _ => Run.Agrees.ofExcept _

/-- Once the entry point is found, the scope ends where its call ends. -/
theorem scopeEnd_use {tools : ModuleTools} {base : Path} {entered : Host} {actions : List Action}
    (h : (tools.enter base).exec (tools.openedHost base host) = (.ok actions, entered)) :
    tools.scopeEnd base (use b resource) host =
      ((Import.callRoutine tools.entry.module actions
        (b.argumentsFor resource)).exec entered).2 := by
  unfold ModuleTools.scopeEnd use
  rw [ModuleTools.within_exec h, watched_exec, Run.exec_bind]
  rcases (Import.callRoutine tools.entry.module actions (b.argumentsFor resource)).exec entered with
    ⟨_ | _, _⟩ <;> rfl

end Invocation

/-! ## 3. What is left after a disassembly -/

namespace Service

variable {s : Service} {unit : ClassUnit} {root : Path} {host other made made' : Host}
variable {resource : Disposable} {entry : EntryPoint} {entryText : String}

/-- The host has the given modules, and makes class files where and how another one does. -/
structure StandsAs (modules : ModuleTable) (earlier host : Host) : Prop where
  modules : host.modules = modules
  systemTemp : host.systemTemp = earlier.systemTemp
  openFault : host.openFault = earlier.openFault

theorem StandsAs.noted {modules : ModuleTable} {earlier : Host}
    (h : StandsAs modules earlier host) (level : Level) (message : String) :
    StandsAs modules earlier (host.noted level message) :=
  { h with }

/-- Making the class file leaves the modules alone. -/
theorem makeFile_standsAs (s : Service) (unit : ClassUnit) (host : Host) :
    StandsAs host.modules host (s.makeFile unit host).2 :=
  Disposable.create_keeps (P := StandsAs host.modules host) (fun _ _ _ h => { h with })
    (fun _ level message h => h.noted level message) _ _ (setLock true host) ⟨rfl, rfl, rfl⟩

/-- Telling the outcome leaves the modules alone. -/
theorem conclude_standsAs {modules : ModuleTable} {earlier : Host} (unit : ClassUnit) (root : Path)
    (finished : Finished) : (s.conclude unit root finished).Keeps (StandsAs modules earlier) := by
  refine conclude_keeps s unit root (fun _ level message h => h.noted level message)
    (fun store _ fault report ho => ?_) finished
  have hstore : store.Upheld (fun _ => True) (StandsAs modules earlier) :=
    { write := fun _ _ _ _ h _ _ => { h with }
      unlink := fun _ _ _ h _ _ => { h with }
      noted := fun _ level message h => h.noted level message
      supplies := fun _ _ _ h => { h with }
      manifest := trivial
      stats := trivial
      recordPath := fun _ _ _ _ _ _ => trivial
      filesOf := fun _ _ _ _ _ _ _ => trivial }
  exact ErrorStore.record_keeps hstore fault ho

/-- After a disassembly the modules are those that the tool left. -/
theorem disassemble_standsAs (hroot : s.configuration.toolPath = some root)
    (hinvoker : s.invoker = Invocation.invoke) (unit : ClassUnit) (host : Host) :
    StandsAs
      (match s.makeFile unit host with
        | (.error _, _) => host.modules
        | (.ok resource, made) => (s.toolEnd root resource made).modules)
      host ((s.disassemble unit).exec host).2 := by
  obtain ⟨finished, hafter⟩ := disassemble_host hroot unit host
  have hmade := makeFile_standsAs s unit host
  have hcleaned : StandsAs
      (match s.makeFile unit host with
        | (.error _, _) => host.modules
        | (.ok resource, made) => (s.toolEnd root resource made).modules)
      host (s.cleaned unit root host) := by
    cases hm : s.makeFile unit host with
    | mk result made =>
      rw [hm] at hmade
      cases result with
      | error fault =>
        rw [cleaned_of_error root hm]
        exact hmade
      | ok resource =>
        rw [cleaned_of_ok root hm]
        have hplaces : Import.Indifferent fun h =>
            h.systemTemp = host.systemTemp ∧ h.openFault = host.openFault :=
          ⟨fun _ _ _ _ h _ => h, fun _ _ h => h⟩
        have hspares : Import.Spares (fun h : Host =>
            h.systemTemp = host.systemTemp ∧ h.openFault = host.openFault)
            (s.backend.argumentsFor resource.path) :=
          ⟨fun _ _ _ h _ _ => h, fun _ _ _ h _ _ => h⟩
        have hend := Invocation.invoke_keeps hplaces s.backend root resource.path hspares
          (toolStart made) ⟨hmade.systemTemp, hmade.openFault⟩
        rw [← hinvoker] at hend
        refine Disposable.discard_of_property (P := StandsAs _ host) (fun _ _ _ h => { h with })
          (fun _ level message h => h.noted level message) resource ?_
        exact ⟨rfl, hend.1, hend.2⟩
  rw [hafter]
  exact { conclude_standsAs unit root finished _ hcleaned with }

/-- **All that the tool loads in a disassembly from outside its package comes from under its
root**, if it comes to opening the tool. -/
def LoadsUnderRoot (s : Service) (unit : ClassUnit) (tools : ModuleTools) (host : Host) : Prop :=
  ∀ resource made base, s.makeFile unit host = (.ok resource, made) →
    tools.checkedRoot made.disk = .ok base →
      let closing := tools.scopeEnd base (Invocation.use s.backend resource.path) (toolStart made)
      tools.AllUnder closing.disk base host.modules closing.modules

/-- What was loaded is known at the end of the scope, if it comes to opening the tool. -/
theorem loadsUnderRoot_iff {tools : ModuleTools} {base : Path}
    (hmake : s.makeFile unit host = (.ok resource, made))
    (hbase : tools.checkedRoot made.disk = .ok base) :
    s.LoadsUnderRoot unit tools host ↔
      let closing := tools.scopeEnd base (Invocation.use s.backend resource.path) (toolStart made)
      tools.AllUnder closing.disk base host.modules closing.modules := by
  refine ⟨fun h => h resource made base hmake hbase,
    fun h resource' made' base' hmake' hbase' => ?_⟩
  rw [hmake] at hmake'
  cases hmake'
  rw [hbase] at hbase'
  cases hbase'
  exact h

/-- What was loaded is known when the call of the entry point is over, if it is called. -/
theorem loadsUnderRoot_of_enter {tools : ModuleTools} {base : Path} {entered : Host}
    {actions : List Action} (hmake : s.makeFile unit host = (.ok resource, made))
    (hbase : tools.checkedRoot made.disk = .ok base)
    (henter : (tools.enter base).exec (tools.openedHost base (toolStart made)) =
      (.ok actions, entered))
    (hunder :
      let closing := ((Import.callRoutine tools.entry.module actions
        (s.backend.argumentsFor resource.path)).exec entered).2
      tools.AllUnder closing.disk base host.modules closing.modules) :
    s.LoadsUnderRoot unit tools host := by
  rw [loadsUnderRoot_iff hmake hbase, Invocation.scopeEnd_use henter]
  exact hunder

/-- After a disassembly either the modules are those of before, or the tool was opened and closed
again. -/
theorem modules_after (hroot : s.configuration.toolPath = some root)
    (hinvoker : s.invoker = Invocation.invoke)
    (hengine : s.backend.engine = .module entry entryText)
    (unit : ClassUnit) (host : Host) :
    let tools : ModuleTools := { root, entry, entryText }
    let after := ((s.disassemble unit).exec host).2
    (after.modules = host.modules ∧ s.LoadsUnderRoot unit tools host) ∨
      ∃ (closing : Host) (base : Path), Grown (tools.opened base host.modules) closing.modules ∧
        after.modules = tools.closedModules closing.disk base host.modules closing.modules ∧
        (s.LoadsUnderRoot unit tools host ↔
          tools.AllUnder closing.disk base host.modules closing.modules) := by
  intro tools after
  have hafter := (disassemble_standsAs hroot hinvoker unit host).modules
  have hmade := (makeFile_standsAs s unit host).modules
  cases hm : s.makeFile unit host with
  | mk result made =>
    rw [hm] at hafter hmade
    cases result with
    | error fault =>
      refine .inl ⟨hafter, fun resource made' base h => ?_⟩
      rw [hm] at h
      cases h
    | ok resource =>
      have hinvoke : s.toolEnd root resource made =
          ((tools.withEntry (Invocation.use s.backend resource.path)).exec (toolStart made)).2 := by
        unfold toolEnd
        rw [hinvoker, Invocation.invoke_module hengine]
      simp only [hinvoke] at hafter
      cases hbase : tools.checkedRoot made.disk with
      | error fault =>
        rw [ModuleTools.withEntry_exec_error (by exact hbase)] at hafter
        refine .inl ⟨hafter.trans hmade, fun resource' made' base h hok => ?_⟩
        rw [hm] at h
        cases h
        rw [hbase] at hok
        cases hok
      | ok base =>
        have hgrown : Grown (tools.opened base (toolStart made).modules)
            (tools.scopeEnd base (Invocation.use s.backend resource.path)
              (toolStart made)).modules :=
          ModuleTools.grown_scopeEnd base
            (Invocation.use_leavesModules s.backend resource.path) (toolStart made)
        rw [ModuleTools.withEntry_host (by exact hbase)] at hafter
        have hstart : (toolStart made).modules = host.modules := hmade
        rw [hstart] at hgrown hafter
        exact .inr ⟨_, base, hgrown, hafter, loadsUnderRoot_iff hm hbase⟩

/-! ## 4. The next disassembly -/

/-- The run comes out the same where the tool's opening finds tables that are alike. -/
theorem finishedOf_alike (hinvoker : s.invoker = Invocation.invoke)
    (hengine : s.backend.engine = .module entry entryText) (hdisk : made.disk = made'.disk)
    (hmodules : ∀ base, ((⟨root, entry, entryText⟩ : ModuleTools).opened base made.modules).Alike
      ((⟨root, entry, entryText⟩ : ModuleTools).opened base made'.modules)) :
    s.finishedOf root resource made = s.finishedOf root resource made' := by
  have htwins : ∀ base, Twins made.console.begin.1 made'.console.begin.1
      ((⟨root, entry, entryText⟩ : ModuleTools).openedHost base (toolStart made))
      ((⟨root, entry, entryText⟩ : ModuleTools).openedHost base (toolStart made')) :=
    fun base => ⟨hdisk, hmodules base, "", .begin made.console, .begin made'.console⟩
  obtain ⟨hending, text, hwritten, hwritten'⟩ :=
    ModuleTools.withEntry_twins (Invocation.use_alike s.backend resource.path) htwins
  unfold finishedOf toolEnd finishCapture
  rw [hinvoker, Invocation.invoke_module hengine, hending]
  simp only [hwritten.textOf_finish, hwritten'.textOf_finish]

/-- **A disassembly comes out the same** on hosts that make class files in the same way and on which
the tool's opening finds tables that are alike. -/
theorem disassemble_alike (hroot : s.configuration.toolPath = some root)
    (hinvoker : s.invoker = Invocation.invoke)
    (hengine : s.backend.engine = .module entry entryText)
    (unit : ClassUnit) (hmake : Disposable.MakesAlike host other)
    (hmodules : ∀ base, ((⟨root, entry, entryText⟩ : ModuleTools).opened base host.modules).Alike
      ((⟨root, entry, entryText⟩ : ModuleTools).opened base other.modules)) :
    ((s.disassemble unit).exec host).1 = ((s.disassemble unit).exec other).1 := by
  have hlocked : Disposable.MakesAlike (setLock true host) (setLock true other) := { hmake with }
  obtain ⟨hresult, hafter⟩ := Disposable.create_agrees (.bytes unit.data)
    s.configuration.tempDirectory _ _ hlocked
  have hmade := (makeFile_standsAs s unit host).modules
  have hmade' := (makeFile_standsAs s unit other).modules
  rw [disassemble_result hroot, disassemble_result hroot]
  unfold makeFile at hmade hmade' ⊢
  cases hm : (Disposable.create (.bytes unit.data) s.configuration.tempDirectory).exec
      (setLock true host) with
  | mk result made =>
    cases hm' : (Disposable.create (.bytes unit.data) s.configuration.tempDirectory).exec
        (setLock true other) with
    | mk result' made' =>
      rw [hm, hm'] at hresult hafter
      rw [hm] at hmade
      rw [hm'] at hmade'
      cases hresult
      cases result with
      | error fault => rfl
      | ok resource =>
        simp only at hmade hmade' ⊢
        rw [finishedOf_alike hinvoker hengine hafter.disk (by rw [hmade, hmade']; exact hmodules)]

/-- **Which disassemblies start from a fresh copy of the tool.**  The next opening of the tool finds
every name bound to what it was bound to for the first call exactly if all that the first call
loaded from outside the tool's package comes from under the root.  Then a second call on the same
files ends as the first call would have ended, had its class file been given the same name.
Otherwise the second call finds a module loaded that the first call did not find. -/
theorem disassemble_starts_afresh (s : Service) (unit : ClassUnit) (root : Path)
    (entry : EntryPoint) (entryText : String) (host : Host)
    (hroot : s.configuration.toolPath = some root) (hinvoker : s.invoker = Invocation.invoke)
    (hengine : s.backend.engine = .module entry entryText) :
    let tools : ModuleTools := { root, entry, entryText }
    let after := ((s.disassemble unit).exec host).2
    ((∀ base name, (tools.opened base after.modules).get? name =
        (tools.opened base host.modules).get? name) ↔ s.LoadsUnderRoot unit tools host) ∧
    (s.LoadsUnderRoot unit tools host → ∀ namesTaken,
      ((s.disassemble unit).exec { after with disk := host.disk, namesTaken }).1 =
        ((s.disassemble unit).exec { host with namesTaken }).1) ∧
    (¬ s.LoadsUnderRoot unit tools host → ∃ name, ∀ base,
      (tools.opened base host.modules).contains name = false ∧
        (tools.opened base after.modules).contains name = true) := by
  intro tools after
  have hstands := disassemble_standsAs hroot hinvoker unit host
  have hmake : ∀ namesTaken, Disposable.MakesAlike { host with namesTaken }
      { after with disk := host.disk, namesTaken } :=
    fun _ => ⟨rfl, hstands.systemTemp.symm, hstands.openFault.symm, rfl⟩
  rcases modules_after hroot hinvoker hengine unit host with
    ⟨hsame, hunder⟩ | ⟨closing, base, hgrown, hclosed, hunder⟩
  · refine ⟨⟨fun _ => hunder, fun _ base name => by rw [hsame]⟩, fun _ namesTaken => ?_,
      fun hnot => absurd hunder hnot⟩
    refine (disassemble_alike hroot hinvoker hengine unit (hmake namesTaken) fun next => ?_).symm
    show (tools.opened next host.modules).Alike (tools.opened next after.modules)
    rw [hsame]
    exact ⟨rfl, rfl, rfl⟩
  · refine ⟨?_, fun h namesTaken => ?_, fun hnot => ?_⟩
    · rw [hunder, ← ModuleTools.sees_same_iff hgrown, hclosed]
    · refine (disassemble_alike hroot hinvoker hengine unit (hmake namesTaken) fun next => ?_).symm
      show (tools.opened next host.modules).Alike (tools.opened next after.modules)
      rw [hclosed]
      exact (hunder.mp h).alike hgrown next
    · obtain ⟨name, ho, hb, hc⟩ := ModuleTools.remains_of_not_allUnder (mt hunder.mpr hnot)
      refine ⟨name, fun next => ?_⟩
      rw [ModuleTools.contains_opened, ModuleTools.contains_opened, ho, hb, hclosed, hc]
      exact ⟨rfl, rfl⟩

/-- The module that a routine loads, if it does nothing else. -/
def onlyLoads : Member → Option String
  | .routine [.load name] => some name
  | _ => none

theorem eq_of_onlyLoads {member : Member} {name : String} (h : onlyLoads member = some name) :
    member = .routine [.load name] := by
  unfold onlyLoads at h
  split at h
  · cases h
    rfl
  · cases h

/-- A tool that loads a helper, which counts when it is loaded. -/
theorem disassemble_starts_afresh_with_helper :
    let s : Service := {
      backend := { engine := .module ⟨"javap", "main"⟩ "javap:main", label := "Tool",
                   arguments := [] }
      configuration := { toolPath := some ⟨.root, []⟩, tempDirectory := some ⟨.root, []⟩ } }
    let host : Host := {
      disk := { tree := ⟨[
        (["javap.py"], .file (.script { members := [("main", .routine [.load "helper"])] }) 0o644),
        (["helper.py"], .file (.script { onLoad := [.count] }) 0o644)]⟩ } }
    ((s.disassemble ⟨[], "Foo"⟩).exec
        { ((s.disassemble ⟨[], "Foo"⟩).exec host).2 with disk := host.disk, namesTaken := 0 }).1 =
      ((s.disassemble ⟨[], "Foo"⟩).exec { host with namesTaken := 0 }).1 := by
  intro s host
  let tools : ModuleTools := ⟨⟨.root, []⟩, ⟨"javap", "main"⟩, "javap:main"⟩
  have hrun : (s.makeFile ⟨[], "Foo"⟩ host).1.toOption.any (fun resource =>
      let made := (s.makeFile ⟨[], "Foo"⟩ host).2
      let load := (Import.loadModule "javap").exec
        (tools.openedHost ⟨.root, []⟩ (toolStart made))
      let final := ((Import.callRoutine "javap" [.load "helper"]
        (s.backend.argumentsFor resource.path)).exec load.2).2
      load.1.toBool && made.disk.cwd.isEmpty && made.disk.denied.isEmpty &&
      tools.isFound made.disk ⟨.root, []⟩ &&
      (load.2.modules.get? "javap").any (fun m => m.origin == some "/javap.py" &&
        (m.member? "main").bind onlyLoads == some "helper") &&
      (Files.linkAt? load.2.disk ⟨.root, ["javap.py"]⟩).isNone &&
      (load.2.disk.stat "/javap.py").toBool &&
      final.modules.loaded.all (fun entry =>
        tools.owns entry.1 || entry.2.origin == some "/helper.py") &&
      (Files.linkAt? final.disk ⟨.root, ["helper.py"]⟩).isNone &&
      (final.disk.stat "/helper.py").toBool) = true := by decide +kernel
  have hunder : s.LoadsUnderRoot ⟨[], "Foo"⟩ tools host := by
    rcases hmake : s.makeFile ⟨[], "Foo"⟩ host with ⟨_ | resource, made⟩
    · rw [hmake] at hrun
      cases hrun
    rw [hmake] at hrun
    rcases hload : (Import.loadModule "javap").exec
      (tools.openedHost ⟨.root, []⟩ (toolStart made)) with ⟨_ | _, loaded⟩
    · simp only [Except.toOption, Option.any_some, hload, Bool.and_eq_true] at hrun
      cases hrun.1.1.1.1.1.1.1.1.1
    simp only [Except.toOption, Option.any_some, hload, Bool.and_eq_true, List.isEmpty_iff,
      Option.isNone_iff_eq_none] at hrun
    obtain ⟨⟨⟨⟨⟨⟨⟨⟨⟨-, hcwd⟩, hdenied⟩, hfound⟩, hmodule⟩, hlink⟩, hthere⟩, hloaded⟩, hlink'⟩,
      hthere'⟩ := hrun
    -- the module of the entry point lies under the root
    have hresolve : loaded.disk.resolve (Path.ofText "/javap.py") = .ok ⟨.root, ["javap.py"]⟩ :=
      Disk.resolve_name (by decide) (by decide) hlink hthere
    have hroutine : tools.routine ⟨.root, []⟩ loaded = .ok [.load "helper"] := by
      obtain ⟨m, hget, hmember⟩ := (Option.any_eq_true _ _).mp hmodule
      simp only [Bool.and_eq_true, beq_iff_eq] at hmember
      obtain ⟨member, hlookup, honly⟩ := Option.bind_eq_some_iff.mp hmember.2
      rw [eq_of_onlyLoads honly] at hlookup
      exact ModuleTools.routine_of_module hget hmember.1 hresolve rfl hlookup
    have henter : (tools.enter ⟨.root, []⟩).exec
        (tools.openedHost ⟨.root, []⟩ (toolStart made)) = (.ok [.load "helper"], loaded) := by
      have hopened : tools.isFound (tools.openedHost ⟨.root, []⟩ (toolStart made)).disk
        ⟨.root, []⟩ = true := hfound
      rw [ModuleTools.enter_exec, if_pos hopened, hload]
      simp only [hroutine]
    refine loadsUnderRoot_of_enter hmake (ModuleTools.checkedRoot_top _ _ hcwd hdenied) henter ?_
    -- and so does the helper
    intro closing entry hm ho _
    have hentry := List.all_eq_true.mp hloaded entry hm
    rw [ho, Bool.false_or, beq_iff_eq] at hentry
    have hhelper : closing.disk.resolve (Path.ofText "/helper.py") = .ok ⟨.root, ["helper.py"]⟩ :=
      Disk.resolve_name (by decide) (by decide) hlink' hthere'
    exact ⟨_, _, hentry, hhelper, rfl⟩
  have hall := disassemble_starts_afresh s ⟨[], "Foo"⟩ ⟨.root, []⟩ ⟨"javap", "main"⟩ "javap:main"
    host rfl rfl rfl
  exact hall.2.1 hunder 0

end Service

end Dissect
