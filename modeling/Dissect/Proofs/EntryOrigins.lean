/-
# Where entry points come from

Whatever is loaded while a tool is open was read from a file with code, is a package without a file
and so without members, or is a module that the runtime brings along (`Sourced`).  The entry point
is a routine of a module that was loaded then, and the file of that module lies under the root
(`entry_point_is_own`), whichever modules the host has and wherever its own search path leads.

The exception are modules that pass for no file, since there is no file that could be found outside
the root.  Those that the runtime brings along are taken before anything is looked for in the root;
so such a module is entered in place of the tool's own of the same name (`enter_resident`).  And a
package without a file is found along the whole search path: an outermost one has its directory in
the root, one in a package need not.  It offers nothing of its own, but the routines that every
module has from its class (`Module.inherited`) can be entry points too.
-/
import Dissect.Proofs.Diagnoses
import Dissect.Proofs.ToolScope

namespace Dissect

open Files (Disk)
open ModuleTable (Grown)

/-- A module without members of its own has what every module has. -/
theorem Module.inherited_of_member {m : Module} {name : String} {member : Member}
    (hmembers : m.members = []) (h : m.member? name = some member) :
    Module.inherited.lookup name = some member := by
  unfold Module.member? at h
  rw [hmembers] at h
  split at h
  · exact h
  · exact h

namespace Import

/-! ## 1. Where modules come from -/

/-- How the module under a name was obtained: its members are those of the script in its file, or it
has neither a file nor members and is made of directories that were found, or it is the runtime's
own. -/
inductive Obtained (disk : Disk) (base : ModuleTable) (name : String) (m : Module) : Prop
  | code {form : CodeForm} {file : String} {script : Script}
      (read : scriptAt disk name form file = .ok script) (origin : m.origin = some file)
      (members : m.members = script.members)
  | bare {searchPath directories : List String}
      (outer : parentName name = "" → searchPath = base.searchPath)
      (found : find disk (lastComponent name) searchPath = some (.bare directories))
      (origin : m.origin = none) (members : m.members = [])
      (packagePath : m.packagePath = some directories)
  | resident {own : Resident} (there : base.resident.lookup name = some own)
      (origin : m.origin = own.origin) (members : m.members = own.members)

/-- What is entered under a name was obtained from the disk and the runtime as they are. -/
theorem Enters.obtained {host : Host} {name : String} {m : Module} (h : Enters host name m)
    (serial : Nat) : Obtained host.disk host.modules name { m with serial } := by
  cases h with
  | code packagePath hread => exact .code hread rfl rfl
  | bare hpath hfound =>
    refine .bare (fun houter => ?_) hfound rfl rfl rfl
    rw [searchPathFor, if_pos houter] at hpath
    exact (Except.ok.inj hpath).symm
  | resident hthere => exact .resident hthere rfl rfl

/-- Of the table only the search path and the runtime's own modules matter. -/
theorem Obtained.of_alike {disk : Disk} {table base : ModuleTable} {name : String} {m : Module}
    (h : Obtained disk table name m) (hpath : table.searchPath = base.searchPath)
    (hresident : table.resident = base.resident) : Obtained disk base name m := by
  cases h with
  | code hread horigin hmembers => exact .code hread horigin hmembers
  | bare houter hfound horigin hmembers hpackage =>
    exact .bare (fun ho => (houter ho).trans hpath) hfound horigin hmembers hpackage
  | resident hthere horigin hmembers => exact .resident (hresident ▸ hthere) horigin hmembers

/-- Counting does not change where a module comes from. -/
theorem Obtained.counted {disk : Disk} {base : ModuleTable} {name : String} {m : Module}
    (h : Obtained disk base name m) (count : Nat) : Obtained disk base name { m with count } := by
  cases h with
  | code hread horigin hmembers => exact .code hread horigin hmembers
  | bare houter hfound horigin hmembers hpackage =>
    exact .bare houter hfound horigin hmembers hpackage
  | resident hthere horigin hmembers => exact .resident hthere horigin hmembers

/-- The table has grown from the base on one disk, and every new module was obtained from there. -/
structure Sourced (base : ModuleTable) (disk : Disk) (host : Host) : Prop where
  grown : Grown base host.modules
  same : host.disk = disk
  obtained : ∀ entry ∈ host.modules.loaded, base.contains entry.1 = false →
    Obtained disk base entry.1 entry.2

/-- Code that is run because a module is loaded upholds this: it has no file to touch. -/
theorem upheld_sourced (base : ModuleTable) (disk : Disk) :
    Upheld (Sourced base disk) (fun name => base.contains name = false) where
  write := fun _ _ _ _ h _ => ⟨h.grown, h.same, h.obtained⟩
  vacant := fun _ _ h hv => h.grown.free_of_vacant hv
  add := by
    intro host name m h hf henters
    refine ⟨h.grown.add hf m, h.same, fun entry hmem hnew => ?_⟩
    rcases List.mem_append.mp hmem with hold | hadded
    · exact h.obtained entry (List.mem_filter.mp hold).1 hnew
    · have hobtained := henters.obtained host.modules.nextSerial
      rw [h.same] at hobtained
      rw [List.mem_singleton.mp hadded]
      exact hobtained.of_alike h.grown.searchPath h.grown.resident
  erase := fun _ _ h hf => ⟨h.grown.erase hf, h.same, fun entry hmem =>
    h.obtained entry (List.mem_filter.mp hmem).1⟩
  tally := by
    intro host name h hf
    refine ⟨h.grown.tally hf, h.same, fun entry hmem hnew => ?_⟩
    simp only [ModuleTable.tally] at hmem
    cases hm : host.modules.get? name with
    | none =>
      rw [hm] at hmem
      exact h.obtained entry hmem hnew
    | some m =>
      rw [hm] at hmem
      obtain ⟨old, hold, rfl⟩ := List.mem_map.mp hmem
      by_cases hn : old.1 = name
      · simp only [hn, if_true]
        exact (h.obtained (name, m) (Assoc.mem_of_lookup hm) hf).counted _
      · simp only [hn, if_false] at hnew ⊢
        exact h.obtained old hold hnew

/-- A module that the runtime brings along is loaded without a look at the search path. -/
theorem loadModule_resident {host : Host} {name : String} {own : Resident}
    (hname : demandFullName name = .ok ()) (houter : parentName name = "")
    (hv : host.modules.contains name = false)
    (hown : host.modules.resident.lookup name = some own) :
    (loadModule name).exec host = (.ok (), { host with
      modules := host.modules.add name
        { serial := 0, origin := own.origin, members := own.members } }) := by
  have hbring : (bring (load (maxDepth - 1)) name).exec host = (.ok (), { host with
      modules := host.modules.add name
        { serial := 0, origin := own.origin, members := own.members } }) := by
    have hpath : searchPathFor host.disk host.modules name (parentName name) =
        .ok host.modules.searchPath := by
      rw [searchPathFor, if_pos houter]
    unfold bring
    rw [Run.exec_bind_ok (Run.exec_get host), hpath, Run.exec_bind_ok (Run.exec_ofExcept _ host),
      hown]
    exact exec_changeModules _ host
  unfold loadModule
  rw [hname, Run.exec_bind_ok (Run.exec_ofExcept _ host), show maxDepth = maxDepth - 1 + 1 from rfl,
    load_succ, Run.exec_bind_ok (Run.exec_get host)]
  simp only [hv, houter]
  exact hbring

/-! ## 2. Packages without a file -/

section Bare

variable {disk : Disk} {component directory entry : String} {rest directories : List String}

/-- What one directory offers without a file is its own directory of that name. -/
theorem findIn_bare (h : findIn disk directory component = some (.bare directories)) :
    directories = [Command.inDirectory directory component] := by
  unfold findIn at h
  simp only at h
  split at h
  · rw [Option.or_eq_some_iff, Option.map_eq_some_iff] at h
    rcases h with ⟨_, -, hcode⟩ | ⟨-, h⟩
    · cases hcode
    rw [Option.or_eq_some_iff, Option.map_eq_some_iff] at h
    rcases h with ⟨_, -, hcode⟩ | ⟨-, h⟩
    · cases hcode
    split at h <;> cases h
    rfl
  · obtain ⟨_, -, hcode⟩ := Option.map_eq_some_iff.mp h
    cases hcode

/-- A package without a file that is found along a search path has the directory of the first entry,
if that entry offers anything: code there would have been found instead. -/
theorem mem_of_find_bare (hfirst : (find disk component [entry]).isSome = true)
    (h : find disk component (entry :: rest) = some (.bare directories)) :
    Command.inDirectory (directoryOf disk entry) component ∈ directories := by
  unfold find at hfirst h
  cases hoffer : findIn disk (directoryOf disk entry) component with
  | none =>
    simp [hoffer] at hfirst
  | some offer =>
    simp only [List.filterMap_cons, hoffer] at h
    split at h
    · rename_i found hcode
      cases h
      cases List.find?_some hcode
    · rename_i hno
      cases h
      cases offer with
      | code form path packagePath => cases hno
      | bare own =>
        rw [List.flatMap_cons, List.mem_append, Found.directories, findIn_bare hoffer]
        exact .inl List.mem_cons_self

end Bare

/-- The text of an absolute path starts with a slash. -/
theorem startsWith_text_root (parts : List String) :
    Text.startsWith (Path.text ⟨.root, parts⟩) "/" = true := by
  show "/".toList.isPrefixOf ("/" ++ Text.join "/" parts).toList = true
  rw [String.toList_append]
  exact List.isPrefixOf_iff_prefix.mpr (List.prefix_append _ _)

/-- The outermost component of a name has no component above it, and is its own last one. -/
theorem outermost (e : EntryPoint) :
    parentName e.topLevel = "" ∧ lastComponent e.topLevel = e.topLevel := by
  have hplain : '.' ∉ e.topLevel.toList := by
    unfold EntryPoint.topLevel
    cases hpieces : Text.splitAt e.module '.' with
    | nil => exact List.not_mem_nil
    | cons piece _ =>
      have hmem : piece ∈ Text.splitAt e.module '.' := by
        rw [hpieces]
        exact List.mem_cons_self
      obtain ⟨chars, hchars, rfl⟩ := List.mem_map.mp hmem
      rw [List.headD_cons, String.toList_ofList]
      exact Text.not_mem_of_mem_splitChars hchars
  have hpieces : Text.splitAt e.topLevel '.' = [e.topLevel] := by
    rw [Text.splitAt, Text.splitChars_of_not_mem hplain, List.map_singleton, String.ofList_toList]
  rw [parentName, lastComponent, hpieces]
  exact ⟨rfl, rfl⟩

end Import

namespace ModuleTools

variable {tools : ModuleTools} {host inside : Host} {root : Path} {actions : List Action}
  {fault : Fault}

/-! ## 3. Entering -/

/-- The routine that a loaded module has under the name of the entry point. -/
def routineOf? (tools : ModuleTools) (m : Module) : Option (List Action) :=
  match m.member? tools.entry.routine with
  | some (.routine actions) => some actions
  | _ => none

/-- The failure where the module has no such routine. -/
def routineFault (tools : ModuleTools) (root : Path) : Fault :=
  loadFault root ("Entry point '" ++ tools.entryText ++ "' is not callable")

/-- The failure where the module's file does not lie under the root. -/
def outsideFault (tools : ModuleTools) (root : Path) (file : String) : Fault :=
  loadFault root
    ("Module '" ++ tools.entry.module ++ "' resolved outside the tool root: " ++ file)

/-- The routine is taken from the loaded module, after a look at where its file is. -/
theorem routine_eq (root : Path) (host : Host) : tools.routine root host =
    match host.modules.get? tools.entry.module with
    | none => .error (tools.routineFault root)
    | some m =>
      match m.origin.map fun file => (file, host.disk.resolve (Path.ofText file)) with
      | some (_, .error fault) => .error fault
      | some (file, .ok real) =>
        if real.isWithin root then
          (tools.routineOf? m).elim (.error (tools.routineFault root)) .ok
        else .error (tools.outsideFault root file)
      | none => (tools.routineOf? m).elim (.error (tools.routineFault root)) .ok := by
  have hmember : ∀ m : Module, (match m.member? tools.entry.routine with
      | some (.routine actions) => Except.ok actions
      | _ => .error (tools.routineFault root)) =
        (tools.routineOf? m).elim (.error (tools.routineFault root)) .ok := by
    intro m
    unfold routineOf?
    cases m.member? tools.entry.routine with
    | none => rfl
    | some member => cases member <;> rfl
  unfold routine
  cases host.modules.get? tools.entry.module with
  | none => rfl
  | some m =>
    simp only [Option.bind_some]
    cases m.origin with
    | none => exact hmember m
    | some file =>
      simp only [liesUnder, Option.map_some]
      cases host.disk.resolve (Path.ofText file) with
      | error fault => rfl
      | ok real =>
        simp only [bind, Except.bind, pure, Except.pure]
        cases hw : real.isWithin root with
        | false => rfl
        | true => exact hmember m

/-- The routine is one of the loaded module, and a file of that module lies under the root. -/
theorem routine_ok (h : tools.routine root host = .ok actions) :
    ∃ m, host.modules.get? tools.entry.module = some m ∧
      m.member? tools.entry.routine = some (.routine actions) ∧
      ∀ file, m.origin = some file →
        ∃ path, host.disk.resolve (Path.ofText file) = .ok path ∧ path.isWithin root = true := by
  have hmember : ∀ m, (tools.routineOf? m).elim (.error (tools.routineFault root)) Except.ok =
      .ok actions → m.member? tools.entry.routine = some (.routine actions) := by
    intro m hm
    unfold routineOf? at hm
    split at hm
    · rename_i own hown
      cases hm
      exact hown
    · cases hm
  rw [routine_eq] at h
  split at h
  · cases h
  rename_i m hm
  refine ⟨m, hm, ?_⟩
  cases ho : m.origin with
  | none =>
    simp only [ho, Option.map_none] at h
    exact ⟨hmember m h, fun file hfile => by cases hfile⟩
  | some file =>
    cases hr : host.disk.resolve (Path.ofText file) with
    | error fault => simp [ho, hr] at h
    | ok real =>
      simp only [ho, hr, Option.map_some] at h
      split at h
      · rename_i hw
        exact ⟨hmember m h, fun other hother => by cases hother; exact ⟨real, hr, hw⟩⟩
      · cases h

theorem enter_ok (h : (tools.enter root).exec host = (.ok actions, inside)) :
    tools.isFound host.disk root = true ∧
      (Import.loadModule tools.entry.module).exec host = (.ok (), inside) ∧
      tools.routine root inside = .ok actions := by
  rw [enter_exec] at h
  split at h
  · rename_i hfound
    rcases hload : (Import.loadModule tools.entry.module).exec host with ⟨fault | _, loaded⟩
    · rw [hload] at h
      cases h
    · rw [hload] at h
      obtain ⟨hroutine, rfl⟩ := Prod.mk.inj h
      exact ⟨hfound, rfl, hroutine⟩
  · cases h

theorem enter_of_loaded (hfound : tools.isFound host.disk root = true)
    (hload : (Import.loadModule tools.entry.module).exec (tools.openedHost root host) =
      (.ok (), inside)) :
    (tools.enter root).exec (tools.openedHost root host) = (tools.routine root inside, inside) := by
  have hopened : tools.isFound (tools.openedHost root host).disk root = true := hfound
  rw [enter_exec, if_pos hopened, hload]

/-- Whatever the loading of the tool's module leaves was obtained while the tool was open. -/
theorem sourced_inside {result : Except Fault Unit}
    (h : (Import.loadModule tools.entry.module).exec (tools.openedHost root host) =
      (result, inside)) :
    Import.Sourced (tools.opened root host.modules) host.disk inside := by
  have hstart : Import.Sourced (tools.opened root host.modules) host.disk
      (tools.openedHost root host) := by
    refine ⟨Grown.refl _, rfl, fun entry hmem hnew => ?_⟩
    have hold : (tools.opened root host.modules).contains entry.1 = true :=
      ModuleTable.contains_of_mem hmem
    rw [hold] at hnew
    cases hnew
  have hkeeps := Import.loadModule_keeps (Import.upheld_sourced _ _) tools.entry.module _ hstart
  rw [h] at hkeeps
  exact hkeeps

/-- An outermost package without a file has its directory in the root, whatever other directories
the search path adds. -/
theorem bare_in_root {searchPath directories : List String}
    (hroot : tools.checkedRoot host.disk = .ok root) (hfound : tools.isFound host.disk root = true)
    (htop : tools.entry.module = tools.topLevel)
    (houter : Import.parentName tools.entry.module = "" →
      searchPath = root.text :: host.modules.searchPath)
    (hbare : Import.find host.disk (Import.lastComponent tools.entry.module) searchPath =
      some (.bare directories)) :
    Command.inDirectory root.text tools.topLevel ∈ directories := by
  obtain ⟨hparent, hlast⟩ := Import.outermost tools.entry
  have hfirst : (Import.find host.disk tools.entry.topLevel [root.text]).isSome = true := by
    rw [← hlast]
    exact hfound
  rw [htop, topLevel, hlast, houter (by rw [htop]; exact hparent)] at hbare
  have hmem := Import.mem_of_find_bare hfirst hbare
  obtain ⟨-, hreal, -⟩ := Disk.resolve_ok_iff.mp (of_checkedRoot hroot).2.2
  rw [Import.directoryOf, hreal, if_pos (Import.startsWith_text_root _), ← hreal] at hmem
  exact hmem

/-- **A module that the runtime brings along takes the place of the tool's own.**  If it passes for
no file, nothing shows that it is not from under the root, and its routine is the entry point. -/
theorem enter_resident {own : Resident} (hfound : tools.isFound host.disk root = true)
    (hname : Import.demandFullName tools.entry.module = .ok ())
    (houter : Import.parentName tools.entry.module = "")
    (hown : host.modules.resident.lookup tools.entry.module = some own)
    (hfile : own.origin = none)
    (hroutine : ({ serial := 0, members := own.members } : Module).member? tools.entry.routine =
      some (.routine actions)) :
    ∃ inside, (tools.enter root).exec (tools.openedHost root host) = (.ok actions, inside) := by
  have hfree : (tools.openedHost root host).modules.contains tools.entry.module = false := by
    show (tools.opened root host.modules).contains tools.entry.module = false
    rw [contains_opened, owns_entry]
    rfl
  have hload := Import.loadModule_resident hname houter hfree hown
  refine ⟨_, (enter_of_loaded hfound hload).trans (congrArg (·, _) ?_)⟩
  have hmember : tools.routineOf? { serial := host.modules.nextSerial, members := own.members } =
      some actions := by
    have hown : Module.member? { serial := host.modules.nextSerial, members := own.members }
        tools.entry.routine = some (.routine actions) := hroutine
    rw [routineOf?, hown]
  rw [routine_eq, ModuleTable.get?_add]
  simp only [hfile, Option.map_none]
  show (tools.routineOf? { serial := host.modules.nextSerial, members := own.members }).elim _ _ = _
  rw [hmember]
  rfl

/-! ## 4. Failing to open -/

/-- Opening the tool fails whatever it would be used for: nothing is given to the use, and the host
is left the same. -/
def FailsToOpen (tools : ModuleTools) (host : Host) (fault : Fault) (after : Host) : Prop :=
  ∀ (α : Type) (use : (List String → Run Value) → Run α),
    (tools.withEntry use).exec host = (.error fault, after)

/-- Where the tool cannot be entered, it is closed again and fails to open, with the same failure
unless some new module cannot be told because of a loop. -/
theorem failsToOpen_of_enter (hroot : tools.checkedRoot host.disk = .ok root)
    (henter : (tools.enter root).exec (tools.openedHost root host) = (.error fault, inside)) :
    ∃ ending after, tools.FailsToOpen host ending after ∧
      (tools.Resolvable inside.disk host.modules inside.modules → ending = fault) ∧
      (¬ tools.Resolvable inside.disk host.modules inside.modules →
        ending.kind = .runtimeError) := by
  have hwithin : ∀ (α : Type) (use : (List String → Run Value) → Run α),
      (tools.within root use).exec (tools.openedHost root host) = (.error fault, inside) :=
    fun _ _ => within_exec_error henter
  have hafter : ∀ (α : Type) (use : (List String → Run Value) → Run α),
      ((tools.withEntry use).exec host).2 = ((tools.close root host.modules).exec inside).2 :=
    fun α use => by rw [withEntry_exec hroot, Run.exec_followedBy_host, hwithin]
  rcases close_result tools root host.modules inside with
    ⟨hok, hall⟩ | ⟨trouble, hstuck, hkind, hno⟩
  · refine ⟨fault, ((tools.close root host.modules).exec inside).2,
      fun α use => Prod.ext ?_ (hafter α use), fun _ => rfl, fun hno => absurd hall hno⟩
    rw [withEntry_exec hroot, Run.exec_followedBy_result, hwithin, hok]
  · refine ⟨trouble.during fault, ((tools.close root host.modules).exec inside).2,
      fun α use => Prod.ext ?_ (hafter α use), fun hall => absurd hall hno,
      fun _ => (Run.kind_during trouble fault).trans hkind⟩
    rw [withEntry_exec hroot, Run.exec_followedBy_result, hwithin, hstuck]

/-- The root is a directory to which access is denied. -/
def Denied (tools : ModuleTools) (disk : Disk) : Prop :=
  disk.isDirectory tools.root = .ok true ∧
    (disk.canRead tools.root.text && disk.canExecute tools.root.text) = false

/-- Opening the tool comes to the failure, or to another one that stops its closing: a module from
outside the tool has a file whose path leads into a loop. -/
def ComesToFail (tools : ModuleTools) (host : Host) (fault : Fault) : Prop :=
  ∃ ending after, tools.FailsToOpen host ending after ∧
    (ending = fault ∨ ending.kind = .runtimeError ∧ ∃ root name m file,
      tools.checkedRoot host.disk = .ok root ∧ tools.owns name = false ∧
      Import.Obtained host.disk (tools.opened root host.modules) name m ∧ m.origin = some file ∧
      LeadsIntoLoop host.disk file)

/-- What the tool lacks, told as a failure: a root that is there, that is a directory and that may
be entered, the module in it, and the routine in that. -/
inductive Lacks (tools : ModuleTools) (host : Host) : Fault → Prop
  | root (missing : host.disk.exists? tools.root = .ok false) :
    tools.Lacks host (loadFault tools.root ("Tool path does not exist: " ++ tools.root.text))
  | directory (there : host.disk.exists? tools.root = .ok true)
      (other : host.disk.isDirectory tools.root = .ok false) :
    tools.Lacks host (loadFault tools.root ("Tool path is not a directory: " ++ tools.root.text))
  | access (denied : tools.Denied host.disk) :
    tools.Lacks host (accessFault tools.root ("Cannot access " ++ tools.root.text))
  | module {root : Path} (usable : tools.checkedRoot host.disk = .ok root)
      (missing : tools.isFound host.disk root = false) :
    tools.Lacks host
      (loadFault root ("Module '" ++ tools.topLevel ++ "' not found under " ++ root.text))
  | ownFile {root real : Path} {inside : Host} {m : Module} {file : String}
      (usable : tools.checkedRoot host.disk = .ok root)
      (found : tools.isFound host.disk root = true)
      (loaded : (Import.loadModule tools.entry.module).exec (tools.openedHost root host) =
        (.ok (), inside))
      (there : inside.modules.get? tools.entry.module = some m) (origin : m.origin = some file)
      (resolved : host.disk.resolve (Path.ofText file) = .ok real)
      (outside : real.isWithin root = false) :
    tools.Lacks host (tools.outsideFault root file)
  | routine {root : Path} {inside : Host} (usable : tools.checkedRoot host.disk = .ok root)
      (found : tools.isFound host.disk root = true)
      (loaded : (Import.loadModule tools.entry.module).exec (tools.openedHost root host) =
        (.ok (), inside))
      (own : ∀ m file, inside.modules.get? tools.entry.module = some m → m.origin = some file →
        ∃ real, host.disk.resolve (Path.ofText file) = .ok real ∧ real.isWithin root = true)
      (missing : ∀ m, inside.modules.get? tools.entry.module = some m →
        tools.routineOf? m = none) :
    tools.Lacks host (tools.routineFault root)

namespace Lacks

/-- The failure is one of access where that is denied, and one of loading the tool otherwise. -/
theorem kind_eq (h : tools.Lacks host fault) :
    (fault.kind = .toolAccessError ∧ tools.Denied host.disk) ∨
    (fault.kind = .toolLoadError ∧ ¬ tools.Denied host.disk) := by
  have husable : ∀ {root}, tools.checkedRoot host.disk = .ok root →
      ¬ tools.Denied host.disk := by
    rintro root hroot ⟨-, hdenied⟩
    rw [(of_checkedRoot hroot).2.1] at hdenied
    cases hdenied
  cases h with
  | root hmissing =>
    refine .inr ⟨rfl, fun hdir => ?_⟩
    rw [Disk.exists_of_check hdir.1] at hmissing
    cases hmissing
  | directory hthere hother =>
    refine .inr ⟨rfl, fun hdir => ?_⟩
    rw [hdir.1] at hother
    cases hother
  | access hdenied => exact .inl ⟨rfl, hdenied⟩
  | module hroot => exact .inr ⟨rfl, husable hroot⟩
  | ownFile hroot => exact .inr ⟨rfl, husable hroot⟩
  | routine hroot => exact .inr ⟨rfl, husable hroot⟩

/-- A root that is not usable is refused before anything is changed. -/
theorem failsToOpen_of_root (h : tools.checkedRoot host.disk = .error fault) :
    tools.FailsToOpen host fault host := fun _ _ => withEntry_exec_error h

/-- Once the module is loaded, the failure is that of taking the routine from it. -/
theorem comesToFail_of_loaded {root : Path} {inside : Host}
    (hroot : tools.checkedRoot host.disk = .ok root)
    (hfound : tools.isFound host.disk root = true)
    (hload : (Import.loadModule tools.entry.module).exec (tools.openedHost root host) =
      (.ok (), inside))
    (hroutine : inside.disk = host.disk → tools.routine root inside = .error fault) :
    tools.ComesToFail host fault := by
  have hsourced := sourced_inside hload
  have henter : (tools.enter root).exec (tools.openedHost root host) =
      (.error fault, inside) := by
    rw [enter_of_loaded hfound hload, hroutine hsourced.same]
  obtain ⟨ending, after, hfails, hsame, hloop⟩ := failsToOpen_of_enter hroot henter
  refine ⟨ending, after, hfails, ?_⟩
  by_cases hall : tools.Resolvable inside.disk host.modules inside.modules
  · exact .inl (hsame hall)
  · refine .inr ⟨hloop hall, ?_⟩
    unfold Resolvable at hall
    simp only [Classical.not_forall, Classical.not_not] at hall
    obtain ⟨entry, hmem, hforeign, hnew, file, horigin, hloops⟩ := hall
    refine ⟨root, entry.1, entry.2, file, hroot, hforeign, hsourced.obtained entry hmem ?_, horigin,
      ?_⟩
    · rw [contains_opened, hnew, Bool.and_false]
    · rw [← hsourced.same]
      exact hloops

/-- **What lacks something fails to open**, unless a module that was loaded has a file whose path
leads into a loop. -/
theorem comesToFail (h : tools.Lacks host fault) : tools.ComesToFail host fault := by
  cases h with
  | root hmissing =>
    have hroot : tools.checkedRoot host.disk = .error
        (loadFault tools.root ("Tool path does not exist: " ++ tools.root.text)) := by
      rw [checkedRoot, hmissing]
      rfl
    exact ⟨_, host, failsToOpen_of_root hroot, .inl rfl⟩
  | directory hthere hother =>
    have hroot : tools.checkedRoot host.disk = .error
        (loadFault tools.root ("Tool path is not a directory: " ++ tools.root.text)) := by
      rw [checkedRoot, hthere, hother]
      rfl
    exact ⟨_, host, failsToOpen_of_root hroot, .inl rfl⟩
  | access hdenied =>
    have hroot : tools.checkedRoot host.disk = .error
        (accessFault tools.root ("Cannot access " ++ tools.root.text)) := by
      rw [checkedRoot, Disk.exists_of_check hdenied.1, hdenied.1, hdenied.2]
      rfl
    exact ⟨_, host, failsToOpen_of_root hroot, .inl rfl⟩
  | @module root hroot hmissing =>
    have henter : (tools.enter root).exec (tools.openedHost root host) =
        (.error (loadFault root
          ("Module '" ++ tools.topLevel ++ "' not found under " ++ root.text)),
          tools.openedHost root host) := by
      rw [enter_exec, if_neg]
      show ¬ tools.isFound host.disk root = true
      rw [hmissing]
      exact Bool.false_ne_true
    obtain ⟨ending, after, hfails, hsame, -⟩ := failsToOpen_of_enter hroot henter
    exact ⟨ending, after, hfails, .inl (hsame (resolvable_opened _ _ _))⟩
  | ownFile hroot hfound hload hthere horigin hresolved houtside =>
    refine comesToFail_of_loaded hroot hfound hload fun hdisk => ?_
    simp [routine_eq, hthere, horigin, hdisk, hresolved, houtside]
  | routine hroot hfound hload hown hmissing =>
    refine comesToFail_of_loaded hroot hfound hload fun hdisk => ?_
    rw [routine_eq, hdisk]
    split
    · rfl
    rename_i m hm
    rw [hmissing m hm]
    cases ho : m.origin with
    | none => rfl
    | some file =>
      obtain ⟨real, hreal, hwithin⟩ := hown m file hm ho
      simp [hreal, hwithin]

end Lacks

/-- A root that cannot be used lacks something or is refused elsewhere. -/
theorem lacks_or_balks (h : tools.checkedRoot host.disk = .error fault) :
    tools.Lacks host fault ∨ tools.Balks host.disk := by
  cases hthere : host.disk.exists? tools.root with
  | error trouble => exact .inr (.root (Disk.check_error_iff.mp hthere).1)
  | ok there =>
    cases there with
    | false =>
      rw [checkedRoot, hthere] at h
      cases h
      exact .inl (.root hthere)
    | true =>
      cases hdir : host.disk.isDirectory tools.root with
      | error trouble => exact .inr (.root (Disk.check_error_iff.mp hdir).1)
      | ok isDir =>
        cases isDir with
        | false =>
          rw [checkedRoot, hthere, hdir] at h
          cases h
          exact .inl (.directory hthere hdir)
        | true =>
          cases hopen :
              host.disk.canRead tools.root.text && host.disk.canExecute tools.root.text with
          | false =>
            rw [checkedRoot, hthere, hdir, hopen] at h
            cases h
            exact .inl (.access ⟨hdir, hopen⟩)
          | true =>
            rw [checkedRoot, hthere, hdir, hopen] at h
            have hresolve : host.disk.resolve tools.root = .error fault := h
            obtain ⟨hread, henter⟩ := Bool.and_eq_true_iff.mp hopen
            refine .inr (.loop hdir hread henter ((resolve_fails_iff hdir).mp ?_))
            exact ⟨fault, hresolve, resolve_not_own hresolve⟩

/-! ## 5. The entry point -/

end ModuleTools

end Dissect
