/-
# The scope of a tool

What opening a tool, using it and closing it again does to the modules and to the search path of
the host.  While the tool is open the table of modules grows (`Proofs/ModuleTables.lean`); closing
it takes out the tool's own modules and the new ones whose files lie under the root, and puts back
the modules of the host that were set aside.

The one way in which this goes wrong is a new module whose file cannot be resolved because its path
leads into a loop of links.  Closing then fails half-way, and the modules set aside stay lost:
`withEntry_restores_host` has the exact condition.
-/
import Dissect.Proofs.FileOperations
import Dissect.Proofs.ToolCode

namespace Dissect.ModuleTools

open Files (Disk)
open ModuleTable (Grown)

variable {α : Type} {tools : ModuleTools}

/-! ## 1. The tool's own names -/

/-- The first piece of a text and what follows it. -/
theorem splitChars_head (sep : Char) : ∀ cs : List Char, ∃ piece pieces,
    Text.splitChars sep cs = piece :: pieces ∧ (cs = piece ∨ (piece ++ [sep]) <+: cs)
  | [] => ⟨[], [], rfl, .inl rfl⟩
  | c :: rest => by
    obtain ⟨piece, pieces, hsplit, hshape⟩ := splitChars_head sep rest
    by_cases hc : c = sep
    · exact ⟨[], Text.splitChars sep rest, by simp [Text.splitChars, hc], .inr ⟨rest, by simp [hc]⟩⟩
    · refine ⟨c :: piece, pieces, by simp [Text.splitChars, hc, hsplit], ?_⟩
      rcases hshape with rfl | ⟨after, rfl⟩
      · exact .inl rfl
      · exact .inr ⟨after, by simp⟩

/-- A tool owns its outermost name and every name below it, and no other. -/
theorem owns_iff {name : String} :
    tools.owns name = true ↔
      name = tools.topLevel ∨ (tools.topLevel ++ ".").toList <+: name.toList := by
  simp [owns, Text.startsWith]

/-- The module of the entry point is one of the tool's own. -/
theorem owns_entry (tools : ModuleTools) : tools.owns tools.entry.module = true := by
  obtain ⟨piece, pieces, hsplit, hshape⟩ := splitChars_head '.' tools.entry.module.toList
  have htop : tools.topLevel = String.ofList piece := by
    simp [topLevel, EntryPoint.topLevel, Text.splitAt, hsplit]
  rw [owns_iff, htop]
  rcases hshape with hwhole | hprefix
  · exact .inl (by rw [← hwhole, String.ofList_toList])
  · exact .inr (by simpa using hprefix)

/-! ## 2. Growth while the tool is open -/

/-- Growth from a base is something that tool code upholds; the names that the base leaves free are
free for it. -/
theorem upheld_grown (base : ModuleTable) :
    Import.Upheld (fun host => Grown base host.modules)
      (fun name => base.contains name = false) where
  write := fun _ _ _ _ h _ => h
  vacant := fun _ _ h hv => h.free_of_vacant hv
  add := fun _ _ m h hf _ => h.add hf m
  erase := fun _ _ h hf => h.erase hf
  tally := fun _ _ h hf => h.tally hf

theorem spares_modules (P : ModuleTable → Prop) (arguments : List String) :
    Import.Spares (fun host => P host.modules) arguments where
  unlink := fun _ _ _ h _ _ => h
  makeDirectory := fun _ _ _ h _ _ => h

/-- Finding the entry point keeps what tool code upholds. -/
theorem enter_keeps {P : Host → Prop} {free : String → Prop} (h : Import.Upheld P free)
    (root : Path) : (tools.enter root).Keeps P := by
  refine Run.Keeps.get.bind fun host => ?_
  split
  · exact Run.Keeps.throw_bind _ _
  · refine (Import.loadModule_keeps h tools.entry.module).attempt.bind fun result => ?_
    cases result with
    | ok _ => exact Run.Keeps.query _
    | error fault => exact Run.Keeps.throw _

/-- The use of a tool changes the table of modules only by calling the entry point. -/
def LeavesModules (use : (List String → Run Value) → Run α) : Prop :=
  ∀ (P : ModuleTable → Prop) (call : List String → Run Value),
    (∀ arguments, (call arguments).Keeps fun host => P host.modules) →
      (use call).Keeps fun host => P host.modules

/-- The host with the tool open. -/
def openedHost (tools : ModuleTools) (root : Path) (host : Host) : Host :=
  { host with modules := tools.opened root host.modules }

/-- The host at the end of the scope, before the tool is closed. -/
def scopeEnd (tools : ModuleTools) (root : Path) (use : (List String → Run Value) → Run α)
    (host : Host) : Host :=
  ((tools.within root use).exec (tools.openedHost root host)).2

/-- **At the end of the scope the table has grown from the one that the tool was opened with.** -/
theorem grown_scopeEnd (root : Path) {use : (List String → Run Value) → Run α}
    (hu : LeavesModules use) (host : Host) :
    Grown (tools.opened root host.modules) (tools.scopeEnd root use host).modules := by
  have hbase := upheld_grown (tools.opened root host.modules)
  have hfree : (tools.opened root host.modules).contains tools.entry.module = false := by
    rw [contains_opened, owns_entry]
    rfl
  have hwithin : (tools.within root use).Keeps
      fun h => Grown (tools.opened root host.modules) h.modules :=
    (enter_keeps hbase root).bind fun actions =>
      hu (Grown (tools.opened root host.modules)) _ fun arguments =>
        Import.callRoutine_keeps hbase hfree actions (spares_modules _ arguments)
  exact hwithin (tools.openedHost root host) (Grown.refl _)

/-! ## 3. Closing -/

/-- The table after the tool is closed. -/
def closedModules (tools : ModuleTools) (disk : Disk) (root : Path) (before t : ModuleTable) :
    ModuleTable :=
  let (kept, stop) := tools.sweep disk root before t.loaded
  { t with
    loaded := if stop.isSome then kept else tools.restored before kept
    searchPath := before.searchPath }

theorem close_exec (root : Path) (before : ModuleTable) (host : Host) :
    (tools.close root before).exec host =
      (match (tools.sweep host.disk root before host.modules.loaded).2 with
        | some fault => .error fault
        | none => .ok (),
       { host with modules := tools.closedModules host.disk root before host.modules }) := by
  unfold close closedModules
  rw [Run.exec_bind_ok (Run.exec_get host)]
  rcases tools.sweep host.disk root before host.modules.loaded with ⟨kept, _ | fault⟩ <;> rfl

/-- A root that is an accessible directory is usable in its link-free form. -/
theorem checkedRoot_ok {tools : ModuleTools} {disk : Disk} {root : Path}
    (hthere : disk.exists? tools.root = .ok true) (hdir : disk.isDirectory tools.root = .ok true)
    (hopen : (disk.canRead tools.root.text && disk.canExecute tools.root.text) = true)
    (hroot : disk.resolve tools.root = .ok root) : tools.checkedRoot disk = .ok root := by
  simp [checkedRoot, hthere, hdir, hopen, hroot, bind, Except.bind]

/-- A root that is usable is an accessible directory, and its link-free form is used. -/
theorem of_checkedRoot {tools : ModuleTools} {disk : Disk} {root : Path}
    (h : tools.checkedRoot disk = .ok root) :
    disk.isDirectory tools.root = .ok true ∧
      (disk.canRead tools.root.text && disk.canExecute tools.root.text) = true ∧
      disk.resolve tools.root = .ok root := by
  unfold checkedRoot at h
  obtain ⟨there, -, h⟩ := ok_of_bind h
  cases there with
  | false => cases h
  | true =>
    obtain ⟨isDir, hdir, h⟩ := ok_of_bind h
    cases isDir with
    | false => cases h
    | true =>
      cases hopen : disk.canRead tools.root.text && disk.canExecute tools.root.text with
      | false => simp [hopen, bind, Except.bind] at h
      | true =>
        simp only [hopen] at h
        exact ⟨hdir, rfl, h⟩

/-- The root of the disk resolves to itself. -/
theorem resolve_top (tree : Files.Tree) :
    ({ tree } : Disk).resolve ⟨.root, []⟩ = .ok ⟨.root, []⟩ := by
  have hstat : ({ tree } : Disk).stat (Path.text ⟨.root, []⟩) = .ok (.directory 0o755) := rfl
  refine Disk.resolve_of_no_link (fun _ hm => by cases hm) rfl ?_ (by rw [hstat]; simp)
  exact fun front hne hfront => absurd (List.prefix_nil.mp hfront) hne

/-- A tool may be installed in the root of the disk. -/
theorem checkedRoot_top (entry : EntryPoint) (entryText : String) {disk : Disk}
    (hcwd : disk.cwd = []) (hdenied : disk.denied = []) :
    (⟨⟨.root, []⟩, entry, entryText⟩ : ModuleTools).checkedRoot disk = .ok ⟨.root, []⟩ := by
  obtain ⟨tree, cwd, denied⟩ := disk
  simp only at hcwd hdenied
  subst hcwd hdenied
  have hstat : ({ tree } : Disk).stat (Path.text ⟨.root, []⟩) = .ok (.directory 0o755) := rfl
  have hdir : ({ tree } : Disk).isDirectory ⟨.root, []⟩ = .ok true := rfl
  have hthere : ({ tree } : Disk).exists? ⟨.root, []⟩ = .ok true := rfl
  refine checkedRoot_ok hthere hdir ?_ (resolve_top tree)
  simp [Disk.canRead, Disk.canExecute, hstat, Files.Node.isExecutable]

/-- Opening fails before anything is changed where the root is not usable. -/
theorem withEntry_exec_error {use : (List String → Run Value) → Run α} {host : Host} {fault : Fault}
    (h : tools.checkedRoot host.disk = .error fault) :
    (tools.withEntry use).exec host = (.error fault, host) :=
  Run.exec_bind_error (by rw [Run.exec_query, h])

theorem within_exec {use : (List String → Run Value) → Run α} {host entered : Host} {root : Path}
    {actions : List Action} (h : (tools.enter root).exec host = (.ok actions, entered)) :
    (tools.within root use).exec host =
      (use (Import.callRoutine tools.entry.module actions)).exec entered :=
  Run.exec_bind_ok h

theorem within_exec_error {use : (List String → Run Value) → Run α} {host after : Host}
    {root : Path} {fault : Fault} (h : (tools.enter root).exec host = (.error fault, after)) :
    (tools.within root use).exec host = (.error fault, after) :=
  Run.exec_bind_error h

theorem withEntry_exec {use : (List String → Run Value) → Run α} {host : Host} {root : Path}
    (h : tools.checkedRoot host.disk = .ok root) :
    (tools.withEntry use).exec host =
      (Run.followedBy (tools.within root use) (tools.close root host.modules)).exec
        (tools.openedHost root host) := by
  have hroot : (Run.query fun host : Host => tools.checkedRoot host.disk).exec host =
      (.ok root, host) := by rw [Run.exec_query, h]
  unfold withEntry
  rw [Run.exec_bind_ok hroot, Run.exec_bind_ok (Run.exec_get host)]
  exact Run.exec_bind_ok (Run.exec_modify _ host)

/-- The host after the scope is the one at its end with the tool closed. -/
theorem withEntry_host {use : (List String → Run Value) → Run α} {host : Host} {root : Path}
    (h : tools.checkedRoot host.disk = .ok root) :
    ((tools.withEntry use).exec host).2 =
      { tools.scopeEnd root use host with
        modules := tools.closedModules (tools.scopeEnd root use host).disk root host.modules
          (tools.scopeEnd root use host).modules } := by
  rw [withEntry_exec h, Run.exec_followedBy_host, close_exec]
  rfl

/-! ## 4. Which modules go -/

/-- The path of the file leads into a loop of links. -/
def LeadsIntoLoop (disk : Disk) (file : String) : Prop :=
  ∃ real, disk.resolve (Path.ofText file) = .error (Disk.loopFault real)

/-- The only failures to resolve a path are texts that no path can be, and loops. -/
theorem resolve_error {disk : Disk} {path : Path} {fault : Fault}
    (h : disk.resolve path = .error fault) :
    fault.isA .valueError = true ∨ ∃ real, fault = Disk.loopFault real := by
  rcases Disk.resolve_error_iff.mp h with htext | ⟨-, -, rfl⟩
  · exact .inl (Disk.isA_pathFault htext rfl rfl)
  · exact .inr ⟨_, rfl⟩

/-- No failure to resolve a path is the loader's own. -/
theorem resolve_not_own {disk : Disk} {path : Path} {fault : Fault}
    (h : disk.resolve path = .error fault) : fault.isA .toolLoadError = false := by
  rcases Disk.resolve_error_iff.mp h with htext | ⟨-, -, rfl⟩
  · exact Disk.isA_pathFault htext rfl rfl
  · rfl

theorem isA_loopFault (real : Path) :
    ((Disk.loopFault real).isA .osError || (Disk.loopFault real).isA .valueError) = false := rfl

/-- Whether a module was loaded from under the root is known unless its file's path leads into a
loop. -/
theorem loadedFrom_ok_iff {disk : Disk} (root : Path) {m : Module} :
    (∃ inside, loadedFrom disk root m = .ok inside) ↔
      ∀ file, m.origin = some file → ¬ LeadsIntoLoop disk file := by
  constructor
  · rintro ⟨inside, h⟩ file ho ⟨real, hloop⟩
    simp only [loadedFrom, ho, liesUnder, hloop, bind, Except.bind] at h
    rw [isA_loopFault] at h
    cases h
  · intro h
    unfold loadedFrom
    cases ho : m.origin with
    | none => exact ⟨false, rfl⟩
    | some file =>
      cases hr : disk.resolve (Path.ofText file) with
      | ok path =>
        exact ⟨path.isWithin root,
          by simp [liesUnder, hr, bind, Except.bind, pure, Except.pure]⟩
      | error fault =>
        rcases resolve_error hr with hvalue | ⟨real, rfl⟩
        · exact ⟨false, by simp [liesUnder, hr, bind, Except.bind, hvalue]⟩
        · exact absurd ⟨real, hr⟩ (h file ho)

/-- A module told not to be from under the root has no file that resolves to a path under it. -/
theorem not_isWithin_of_loadedFrom {disk : Disk} {root path : Path} {m : Module} {file : String}
    (h : loadedFrom disk root m = .ok false) (ho : m.origin = some file)
    (hr : disk.resolve (Path.ofText file) = .ok path) : path.isWithin root = false := by
  simp only [loadedFrom, ho, liesUnder, hr, bind, Except.bind, pure, Except.pure] at h
  exact Except.ok.inj h

/-- **The new modules from outside the tool's package that the tool is closed with can all be
resolved.** -/
def Resolvable (tools : ModuleTools) (disk : Disk) (before t : ModuleTable) : Prop :=
  ∀ entry ∈ t.loaded, tools.owns entry.1 = false → before.contains entry.1 = false →
    ∀ file, entry.2.origin = some file → ¬ LeadsIntoLoop disk file

/-- Nothing is new in the table with which the tool is opened. -/
theorem resolvable_opened (disk : Disk) (root : Path) (before : ModuleTable) :
    tools.Resolvable disk before (tools.opened root before) := by
  intro entry hmem _ hnew
  have hold : before.contains entry.1 = true :=
    ModuleTable.contains_of_mem (List.mem_filter.mp hmem).1
  rw [hold] at hnew
  cases hnew

theorem settles_iff {disk : Disk} {root : Path} {before t : ModuleTable} :
    tools.Settles disk root before t.loaded ↔ tools.Resolvable disk before t := by
  constructor
  · intro h entry hmem ho hb
    rw [← loadedFrom_ok_iff root]
    obtain ⟨goes, hgoes⟩ := h entry hmem
    simp only [unloads, ho, hb, Bool.false_eq_true, if_false] at hgoes
    exact ⟨goes, hgoes⟩
  · intro h entry hmem
    unfold unloads
    cases ho : tools.owns entry.1 with
    | true => exact ⟨true, rfl⟩
    | false =>
      cases hb : before.contains entry.1 with
      | true => exact ⟨false, rfl⟩
      | false => exact (loadedFrom_ok_iff root).mpr (h entry hmem ho hb)

/-- What is left of the table when every module could be told. -/
theorem closedModules_loaded {disk : Disk} {root : Path} {before t : ModuleTable}
    (h : tools.Resolvable disk before t) :
    (tools.closedModules disk root before t).loaded =
      tools.restored before (t.loaded.filter (tools.stays disk root before)) := by
  unfold closedModules
  rw [sweep_of_settles (settles_iff.mpr h)]
  rfl

/-- A module that stays is none of the tool's own, and the host's or from outside the root. -/
theorem stays_iff {disk : Disk} {root : Path} {before : ModuleTable} {entry : String × Module}
    (h : ∃ goes, tools.unloads disk root before entry.1 entry.2 = .ok goes) :
    tools.stays disk root before entry = true ↔
      tools.owns entry.1 = false ∧
        (before.contains entry.1 = true ∨ loadedFrom disk root entry.2 = .ok false) := by
  obtain ⟨goes, hgoes⟩ := h
  unfold stays
  rw [hgoes]
  unfold unloads at hgoes
  cases ho : tools.owns entry.1 with
  | true =>
    rw [ho] at hgoes
    cases hgoes
    simp
  | false =>
    cases hb : before.contains entry.1 with
    | true =>
      simp only [ho, hb, Bool.false_eq_true, if_false, if_true] at hgoes
      cases hgoes
      simp
    | false =>
      simp only [ho, hb, Bool.false_eq_true, if_false] at hgoes
      simp [hgoes]

/-- The failure that stops the sweep is a loop of links. -/
theorem sweep_fault {disk : Disk} {root : Path} {before : ModuleTable} {fault : Fault} :
    ∀ {loaded : List (String × Module)},
      (tools.sweep disk root before loaded).2 = some fault → ∃ real, fault = Disk.loopFault real
  | [], h => by cases h
  | (name, m) :: rest, h => by
    cases hu : tools.unloads disk root before name m with
    | ok goes =>
      cases goes <;> simp only [sweep, hu] at h <;> exact sweep_fault h
    | error trouble =>
      simp only [sweep, hu, Option.some.injEq] at h
      subst h
      unfold unloads at hu
      split at hu
      · cases hu
      split at hu
      · cases hu
      unfold loadedFrom at hu
      split at hu
      · cases hu
      rename_i file ho
      cases hr : disk.resolve (Path.ofText file) with
      | ok path => simp [liesUnder, hr, bind, Except.bind, pure, Except.pure] at hu
      | error inner =>
        simp only [liesUnder, hr, bind, Except.bind] at hu
        split at hu
        · cases hu
        · rename_i hkind
          cases hu
          rcases resolve_error hr with hvalue | hloop
          · simp [hvalue] at hkind
          · exact hloop

/-! ## 5. The host afterwards -/

/-- The modules of the host from outside the tool's package are bound as before, however the scope
ends. -/
theorem get?_closedModules_of_foreign {disk : Disk} {root : Path} {before t : ModuleTable}
    {name : String} {m : Module} (hd : Assoc.Distinct before.loaded)
    (ho : tools.owns name = false) (hb : before.get? name = some m) (ht : t.get? name = some m) :
    (tools.closedModules disk root before t).get? name = some m := by
  have hcontains : before.contains name = true := ModuleTable.contains_iff.mpr ⟨m, hb⟩
  -- the sweep passes over every entry under the name
  have hsweep : ∀ loaded : List (String × Module),
      (tools.sweep disk root before loaded).1.lookup name = loaded.lookup name := by
    intro loaded
    induction loaded with
    | nil => rfl
    | cons entry rest ih =>
      obtain ⟨n, old⟩ := entry
      by_cases hn : name = n
      · subst hn
        simp [sweep, unloads, ho, hcontains]
      · have hne : (name == n) = false := beq_eq_false_iff_ne.mpr hn
        cases hu : tools.unloads disk root before n old with
        | error fault => simp [sweep, hu]
        | ok goes => cases goes <;> simp [sweep, hu, List.lookup_cons, hne, ih]
  have hkept := (hsweep t.loaded).trans ht
  unfold closedModules
  simp only
  split
  · exact hkept
  · show (tools.restored before _).lookup name = some m
    rw [lookup_restored hd, ho]
    exact hkept

/-- Where every module can be told, every module of the host is bound as before. -/
theorem get?_closedModules {disk : Disk} {root : Path} {before t : ModuleTable}
    {name : String} {m : Module} (hd : Assoc.Distinct before.loaded)
    (hg : Grown (tools.opened root before) t) (hr : tools.Resolvable disk before t)
    (hb : before.get? name = some m) :
    (tools.closedModules disk root before t).get? name = some m := by
  cases ho : tools.owns name with
  | true =>
    show (tools.closedModules disk root before t).loaded.lookup name = some m
    rw [closedModules_loaded hr, lookup_restored hd, ho]
    simp [hb]
  | false =>
    have hopened : (tools.opened root before).get? name = some m := by
      rw [get?_opened, ho]
      exact hb
    exact get?_closedModules_of_foreign hd ho hb (hg.get?_of_base hopened)

/-- Where every module can be told, a name that is new afterwards is none of the tool's own, and
its module was not loaded from under the root. -/
theorem new_of_closedModules {disk : Disk} {root : Path} {before t : ModuleTable}
    {name : String} {m : Module} (hd : Assoc.Distinct before.loaded)
    (hr : tools.Resolvable disk before t) (hb : before.get? name = none)
    (hm : (tools.closedModules disk root before t).get? name = some m) :
    tools.owns name = false ∧ loadedFrom disk root m = .ok false := by
  have hlookup : (t.loaded.filter (tools.stays disk root before)).lookup name = some m := by
    have h : (tools.closedModules disk root before t).loaded.lookup name = some m := hm
    rw [closedModules_loaded hr, lookup_restored hd, hb, ite_self, Option.none_or] at h
    exact h
  obtain ⟨hmem, hstays⟩ := List.mem_filter.mp (Assoc.mem_of_lookup hlookup)
  obtain ⟨ho, hhost | hfrom⟩ := (stays_iff (settles_iff.mpr hr _ hmem)).mp hstays
  · unfold ModuleTable.contains at hhost
    rw [hb] at hhost
    cases hhost
  · exact ⟨ho, hfrom⟩

/-- Where some module cannot be told, no module of the host that was set aside comes back. -/
theorem lost_of_not_resolvable {disk : Disk} {root : Path} {before t : ModuleTable}
    {name : String} {m : Module} (hg : Grown (tools.opened root before) t)
    (hs : ∀ entry ∈ before.loaded, entry.2.serial < before.nextSerial)
    (hr : ¬ tools.Resolvable disk before t) (ho : tools.owns name = true)
    (hb : before.get? name = some m) :
    (tools.closedModules disk root before t).get? name ≠ some m := by
  intro hm
  have hunsettled : ¬ tools.Settles disk root before t.loaded := fun h => hr (settles_iff.mp h)
  have hstop := sweep_stops hunsettled
  have hlookup : (tools.sweep disk root before t.loaded).1.lookup name = some m := by
    have h : (tools.closedModules disk root before t).loaded.lookup name = some m := hm
    unfold closedModules at h
    simp only [hstop, if_true] at h
    exact h
  -- what is bound to the name is the tool's, and younger than any module of the host
  have hmem := mem_of_mem_sweep (Assoc.mem_of_lookup hlookup)
  have hfree : (tools.opened root before).contains name = false := by
    rw [contains_opened, ho]
    rfl
  have hyoung : before.nextSerial ≤ m.serial := hg.young _ hmem hfree
  have hold := hs _ (Assoc.mem_of_lookup hb)
  exact absurd hyoung (Nat.not_le.mpr hold)

/-- The search path is put back, whichever way the scope ends. -/
theorem withEntry_searchPath (tools : ModuleTools) (use : (List String → Run Value) → Run α)
    (host : Host) :
    ((tools.withEntry use).exec host).2.modules.searchPath = host.modules.searchPath := by
  cases hc : tools.checkedRoot host.disk with
  | error fault => rw [withEntry_exec_error hc]
  | ok root => rw [withEntry_host hc]; rfl

/-- Closing succeeds exactly if all modules can be told, and otherwise ends in the failure about a
loop. -/
theorem close_result (tools : ModuleTools) (root : Path) (before : ModuleTable) (host : Host) :
    (((tools.close root before).exec host).1 = .ok () ∧
        tools.Resolvable host.disk before host.modules) ∨
      ∃ fault, ((tools.close root before).exec host).1 = .error fault ∧
        fault.kind = .runtimeError ∧ ¬ tools.Resolvable host.disk before host.modules := by
  rw [close_exec]
  by_cases hr : tools.Resolvable host.disk before host.modules
  · refine .inl ⟨?_, hr⟩
    rw [sweep_of_settles (settles_iff.mpr hr)]
  · have hunsettled : ¬ tools.Settles host.disk root before host.modules.loaded :=
      fun h => hr (settles_iff.mp h)
    obtain ⟨trouble, htrouble⟩ := Option.isSome_iff_exists.mp (sweep_stops hunsettled)
    obtain ⟨real, rfl⟩ := sweep_fault htrouble
    refine .inr ⟨Disk.loopFault real, ?_, rfl, hr⟩
    rw [htrouble]

/-- Where some module cannot be told, the scope ends in the failure about the loop. -/
theorem withEntry_fails_of_not_resolvable {use : (List String → Run Value) → Run α} {host : Host}
    {root : Path} (hc : tools.checkedRoot host.disk = .ok root)
    (hr : ¬ tools.Resolvable (tools.scopeEnd root use host).disk host.modules
      (tools.scopeEnd root use host).modules) :
    ∃ fault, ((tools.withEntry use).exec host).1 = .error fault ∧ fault.kind = .runtimeError := by
  rw [withEntry_exec hc, Run.exec_followedBy_result]
  rcases close_result tools root host.modules (tools.scopeEnd root use host) with
    ⟨-, hall⟩ | ⟨trouble, htrouble, hkind, -⟩
  · exact absurd hall hr
  · unfold scopeEnd at htrouble
    rw [htrouble]
    cases ((tools.within root use).exec (tools.openedHost root host)).1 with
    | ok a => exact ⟨_, rfl, hkind⟩
    | error earlier => exact ⟨_, rfl, (Run.kind_during trouble earlier).trans hkind⟩

/-- **The scope of a tool and the host's interpreter.**  However the scope ends, the search path is
the same list as before, and only names of the tool itself are ever set aside: every other module
of the host stays visible in the scope and is there afterwards.  All modules of the host are bound
as before exactly when either every new module from outside the tool's package has a file that can
be resolved, or none was set aside; and in the first case no name that is new afterwards belongs to
the tool or was loaded from under the root.  Otherwise the scope fails, and every module that was
set aside is lost. -/
theorem withEntry_restores_host (tools : ModuleTools) (use : (List String → Run Value) → Run α)
    (host : Host) (hdistinct : Assoc.Distinct host.modules.loaded)
    (hserials : ∀ entry ∈ host.modules.loaded, entry.2.serial < host.modules.nextSerial)
    (huse : LeavesModules use) :
    let outcome := (tools.withEntry use).exec host
    let before := host.modules
    let after := outcome.2.modules
    after.searchPath = before.searchPath ∧
    (∀ fault, tools.checkedRoot host.disk = .error fault →
      outcome = (.error fault, host)) ∧
    ∀ root, tools.checkedRoot host.disk = .ok root →
      let closing := tools.scopeEnd root use host
      (∀ name, (tools.opened root before).get? name =
        if name = tools.topLevel ∨ (tools.topLevel ++ ".").toList <+: name.toList then none
        else before.get? name) ∧
      (∀ name m, tools.owns name = false → before.get? name = some m →
        closing.modules.get? name = some m ∧ after.get? name = some m) ∧
      ((∀ name m, before.get? name = some m → after.get? name = some m) ↔
        tools.Resolvable closing.disk before closing.modules ∨
          ∀ name, tools.owns name = true → before.get? name = none) ∧
      (tools.Resolvable closing.disk before closing.modules →
        ∀ name m, before.get? name = none → after.get? name = some m →
          tools.owns name = false ∧ ∀ file path, m.origin = some file →
            closing.disk.resolve (Path.ofText file) = .ok path → path.isWithin root = false) ∧
      (¬ tools.Resolvable closing.disk before closing.modules →
        (∃ fault, outcome.1 = .error fault ∧ fault.kind = .runtimeError) ∧
        ∀ name m, tools.owns name = true → before.get? name = some m →
          after.get? name ≠ some m) := by
  intro outcome before after
  refine ⟨withEntry_searchPath tools use host, fun fault hc => withEntry_exec_error hc, ?_⟩
  intro root hc closing
  have hafter : after = tools.closedModules closing.disk root before closing.modules :=
    congrArg Host.modules (withEntry_host hc)
  have hgrown : Grown (tools.opened root before) closing.modules := grown_scopeEnd root huse host
  have hforeign : ∀ name m, tools.owns name = false → before.get? name = some m →
      closing.modules.get? name = some m := by
    intro name m ho hm
    refine hgrown.get?_of_base ?_
    rw [get?_opened, ho]
    exact hm
  refine ⟨fun name => ?_, fun name m ho hm => ?_, ⟨fun hall => ?_, fun hcond name m hm => ?_⟩,
    fun hr name m hb hm => ?_, fun hr => ⟨?_, fun name m ho hm => ?_⟩⟩
  · rw [get?_opened]
    by_cases ho : tools.owns name = true
    · rw [if_pos ho, if_pos (owns_iff.mp ho)]
    · rw [if_neg ho, if_neg fun h => ho (owns_iff.mpr h)]
  · rw [hafter]
    exact ⟨hforeign name m ho hm,
      get?_closedModules_of_foreign hdistinct ho hm (hforeign name m ho hm)⟩
  · by_cases hr : tools.Resolvable closing.disk before closing.modules
    · exact .inl hr
    · refine .inr fun name ho => ?_
      cases hm : before.get? name with
      | none => rfl
      | some m =>
        have hlost := lost_of_not_resolvable hgrown hserials hr ho hm
        rw [← hafter] at hlost
        exact absurd (hall name m hm) hlost
  · rw [hafter]
    rcases hcond with hr | hnone
    · exact get?_closedModules hdistinct hgrown hr hm
    · cases ho : tools.owns name with
      | true =>
        rw [hnone name ho] at hm
        cases hm
      | false => exact get?_closedModules_of_foreign hdistinct ho hm (hforeign name m ho hm)
  · rw [hafter] at hm
    obtain ⟨ho, hfrom⟩ := new_of_closedModules hdistinct hr hb hm
    exact ⟨ho, fun file path hfile hpath => not_isWithin_of_loadedFrom hfrom hfile hpath⟩
  · exact withEntry_fails_of_not_resolvable hc hr
  · rw [hafter]
    exact lost_of_not_resolvable hgrown hserials hr ho hm

/-- A tool that loads a helper, in a host with modules of its own, left by an interrupt. -/
theorem withEntry_restores_host_on_interrupt :
    let tools : ModuleTools := ⟨⟨.root, []⟩, ⟨"javap", "main"⟩, "javap:main"⟩
    let script : Script := { members := [("main", .routine [.load "helper"])] }
    let host : Host := {
      disk := { tree := ⟨[(["javap.py"], .file (.script script) 0o644)]⟩ }
      modules := ModuleTable.ofHost ["javap", "javapx"] ["/lib"] }
    let use : (List String → Run Value) → Run Unit := fun call => do
      let _ ← call ["/Foo.class"]
      throw { kind := .keyboardInterrupt }
    let after := ((tools.withEntry use).exec host).2.modules
    after.searchPath = ["/lib"] ∧ after.get? "javapx" = some { serial := 1 } := by
  intro tools script host use after
  have huse : LeavesModules use := fun P call hcall => (hcall _).bind fun _ => Run.Keeps.throw _
  have hdistinct : Assoc.Distinct host.modules.loaded := by unfold Assoc.Distinct; decide
  have hall := withEntry_restores_host tools use host hdistinct (by decide) huse
  have hroot : tools.checkedRoot host.disk = .ok ⟨.root, []⟩ := checkedRoot_top _ _ rfl rfl
  exact ⟨hall.1, ((hall.2.2 _ hroot).2.1 "javapx" _ (by decide) rfl).2⟩

end Dissect.ModuleTools
