/-
# Runs that come out the same

What tool code does depends on the files, on which modules are loaded and what is known of them, and
on nothing else: not on the numbers that modules were given, and not on which capture the streams
belong to.  Two hosts that differ in these only are `Twins`, and a tool that is opened and used on
twins ends in the same way on both, having written the same (`ModuleTools.withEntry_twins`).

It is enough that the tables of modules are alike once the tool is open.  What they hold under the
tool's own names before that has been set aside by then.
-/
import Dissect.Proofs.ToolRuns

namespace Dissect

open Files (Disk Errno)

variable {α : Type}

/-! ## 1. Tables that differ in numbers only -/

/-- What is known of a module but for its number. -/
def Module.unnumbered (m : Module) : Module := { m with serial := 0 }

namespace ModuleTable

variable {t u : ModuleTable}

/-- Entries of a table but for the numbers. -/
def bare (entries : List (String × Module)) : List (String × Module) :=
  entries.map fun entry => (entry.1, entry.2.unnumbered)

/-- The tables are the same but for the numbers of modules. -/
structure Alike (t u : ModuleTable) : Prop where
  loaded : bare t.loaded = bare u.loaded
  searchPath : t.searchPath = u.searchPath
  resident : t.resident = u.resident

theorem lookup_bare (name : String) : ∀ entries : List (String × Module),
    (bare entries).lookup name = (entries.lookup name).map Module.unnumbered
  | [] => rfl
  | (n, m) :: rest => by
    have ih := lookup_bare name rest
    unfold bare at ih ⊢
    cases hn : name == n <;> simp [List.lookup_cons, hn, ih]

theorem bare_filter (p : String → Bool) (entries : List (String × Module)) :
    bare (entries.filter fun entry => p entry.1) =
      (bare entries).filter fun entry => p entry.1 := by
  unfold bare
  rw [List.filter_map]
  rfl

namespace Alike

theorem get? (h : Alike t u) (name : String) :
    (t.get? name).map Module.unnumbered = (u.get? name).map Module.unnumbered := by
  unfold ModuleTable.get?
  rw [← lookup_bare, ← lookup_bare, h.loaded]

/-- What is read off the module of a name, and has nothing to do with its number. -/
theorem read (h : Alike t u) (name : String) {f : Module → α}
    (hf : ∀ m : Module, f m.unnumbered = f m) : (t.get? name).map f = (u.get? name).map f := by
  have hread : ∀ found : Option Module, (found.map Module.unnumbered).map f = found.map f := by
    intro found
    cases found with
    | none => rfl
    | some m => exact congrArg some (hf m)
  rw [← hread, h.get? name, hread]

theorem contains (h : Alike t u) (name : String) : t.contains name = u.contains name := by
  have hname := congrArg Option.isSome (h.get? name)
  unfold ModuleTable.contains
  simpa only [Option.isSome_map] using hname

theorem erase (h : Alike t u) (name : String) : Alike (t.erase name) (u.erase name) where
  loaded := by
    show bare (without name t.loaded) = bare (without name u.loaded)
    unfold without
    rw [bare_filter fun n => n != name, bare_filter fun n => n != name, h.loaded]
  searchPath := h.searchPath
  resident := h.resident

theorem add (h : Alike t u) (name : String) (m : Module) : Alike (t.add name m) (u.add name m) where
  loaded := by
    have herase : bare (without name t.loaded) = bare (without name u.loaded) :=
      (h.erase name).loaded
    show bare (without name t.loaded ++ [_]) = bare (without name u.loaded ++ [_])
    unfold bare at herase ⊢
    rw [List.map_append, List.map_append, herase]
    rfl
  searchPath := h.searchPath
  resident := h.resident

/-- A module counts the same in both. -/
theorem tally (h : Alike t u) (name : String) :
    Alike (t.tally name).1 (u.tally name).1 ∧ (t.tally name).2 = (u.tally name).2 := by
  have hname := h.get? name
  unfold ModuleTable.tally
  cases ht : t.get? name with
  | none =>
    rw [ht] at hname
    rw [Option.map_eq_none_iff.mp hname.symm]
    exact ⟨h, rfl⟩
  | some m =>
    rw [ht] at hname
    obtain ⟨m', hu, hm⟩ := Option.map_eq_some_iff.mp hname.symm
    rw [hu]
    have hcount : m'.count = m.count := by
      have hsame : m'.unnumbered.count = m.unnumbered.count := by rw [hm]
      exact hsame
    have hnew : ({ m' with count := m'.count + 1 } : Module).unnumbered =
        ({ m with count := m.count + 1 } : Module).unnumbered := by
      unfold Module.unnumbered at hm ⊢
      simp only [Module.mk.injEq, true_and] at hm ⊢
      exact ⟨hm.1, hm.2.1, hm.2.2.1, by rw [hcount]⟩
    -- counting commutes with forgetting the numbers
    have hbare : ∀ (counted : Module) (entries : List (String × Module)),
        bare (entries.map fun entry => if entry.1 = name then (entry.1, counted) else entry) =
          (bare entries).map fun entry =>
            if entry.1 = name then (entry.1, counted.unnumbered) else entry := by
      intro counted entries
      unfold bare
      rw [List.map_map, List.map_map]
      refine List.map_congr_left fun entry _ => ?_
      by_cases hn : entry.1 = name <;> simp [hn]
    refine ⟨⟨?_, h.searchPath, h.resident⟩, congrArg (· + 1) hcount.symm⟩
    simp only
    rw [hbare, hbare, h.loaded, hnew]

end Alike

end ModuleTable

/-! ## 2. Twins -/

/-- Both streams go to a capture that is not over and has taken in a text so far. -/
structure Console.CapturedBy (c : Console) (id : Nat) (text : String) : Prop where
  out : c.out = .capture id
  err : c.err = .capture id
  capture : ∃ capture, c.captures[id]? = some capture ∧ capture.finished = false ∧
    capture.text = text

namespace Console.CapturedBy

variable {c : Console} {id : Nat} {text : String}

/-- A capture that has just begun has taken in nothing. -/
theorem begin (c : Console) : c.begin.2.CapturedBy c.begin.1 "" where
  out := rfl
  err := rfl
  capture := ⟨{ previousOut := c.out, previousErr := c.err }, by simp [Console.begin], rfl, rfl⟩

theorem write (h : c.CapturedBy id text) (s : String) :
    ∃ after, c.write (.capture id) s = .ok after ∧ after.CapturedBy id (text ++ s) := by
  obtain ⟨capture, hc, hopen, rfl⟩ := h.capture
  obtain ⟨hid, -⟩ := List.getElem?_eq_some_iff.mp hc
  refine ⟨{ c with captures := c.captures.set id { capture with text := capture.text ++ s } }, ?_,
    ⟨h.out, h.err, _, List.getElem?_set_self hid, hopen, rfl⟩⟩
  simp only [Console.write, hc, hopen, Bool.false_eq_true, if_false]

/-- What the capture gives when it is finished. -/
theorem textOf_finish (h : c.CapturedBy id text) : (c.finish id).textOf id = text := by
  obtain ⟨capture, hc, hopen, rfl⟩ := h.capture
  obtain ⟨hid, -⟩ := List.getElem?_eq_some_iff.mp hc
  simp [Console.finish, Console.textOf, hc, hopen, List.getElem?_set_self hid]

end Console.CapturedBy

/-- **Hosts that tool code cannot tell apart**: they have the same files, modules that are alike,
and streams that go to captures with the same text. -/
structure Twins (id id' : Nat) (host other : Host) : Prop where
  disk : host.disk = other.disk
  modules : host.modules.Alike other.modules
  console : ∃ text, host.console.CapturedBy id text ∧ other.console.CapturedBy id' text

namespace Twins

variable {id id' : Nat} {host other : Host}

theorem withModules (h : Twins id id' host other) {t u : ModuleTable} (ha : t.Alike u) :
    Twins id id' { host with modules := t } { other with modules := u } :=
  { h with modules := ha }

/-- What is written goes to the captures of both. -/
theorem write (h : Twins id id' host other) (s : String) :
    ∃ c c', host.console.write (.capture id) s = .ok c ∧
      other.console.write (.capture id') s = .ok c' ∧
      Twins id id' { host with console := c } { other with console := c' } := by
  obtain ⟨text, hhost, hother⟩ := h.console
  obtain ⟨c, hc, hafter⟩ := hhost.write s
  obtain ⟨c', hc', hafter'⟩ := hother.write s
  exact ⟨c, c', hc, hc', h.disk, h.modules, _, hafter, hafter'⟩

end Twins

/-! ## 3. Actions -/

namespace Import

variable {id id' : Nat}

theorem print_agrees (s : String) : (print s).Agrees (Twins id id') := by
  refine Run.Agrees.get_bind fun host other h => ?_
  obtain ⟨text, hhost, hother⟩ := h.console
  obtain ⟨c, c', hc, hc', hafter⟩ := h.write s
  simp only [Console.writeOut, hhost.out, hother.out, hc, hc']
  exact ⟨rfl, hafter⟩

theorem complain_agrees (s : String) : (complain s).Agrees (Twins id id') := by
  refine Run.Agrees.get_bind fun host other h => ?_
  obtain ⟨text, hhost, hother⟩ := h.console
  obtain ⟨c, c', hc, hc', hafter⟩ := h.write s
  simp only [Console.writeErr, hhost.err, hother.err, hc, hc']
  exact ⟨rfl, hafter⟩

theorem readLast_agrees (arguments : List String) :
    (readLast arguments).Agrees (Twins id id') :=
  (Run.Agrees.ofExcept _).bind fun _ => Run.Agrees.query fun _ _ h => by rw [h.disk]

theorem changeDisk_agrees (f : Disk → Except Fault Disk) :
    (Run.changeDisk f).Agrees (Twins id id') :=
  Run.Agrees.changeDisk (fun _ _ h => h.disk) fun _ _ _ h => { h with disk := rfl }

theorem unlinkLast_agrees (arguments : List String) :
    (unlinkLast arguments).Agrees (Twins id id') :=
  (Run.Agrees.ofExcept _).bind fun _ => changeDisk_agrees _

/-- One action. -/
theorem act_agrees {load : Loader} (hl : ∀ name, (load name).Agrees (Twins id id'))
    (owner : String) (arguments : List String) (action : Action) :
    (act load owner arguments action).Agrees (Twins id id') := by
  have hprint : ∀ s, (print s).Agrees (Twins id id') := print_agrees
  cases action with
  | out s => exact (hprint s).bind fun _ => Run.Agrees.pure _
  | err s => exact (complain_agrees s).bind fun _ => Run.Agrees.pure _
  | arguments => exact (hprint _).bind fun _ => Run.Agrees.pure _
  | hex =>
    exact (readLast_agrees arguments).bind fun _ => (hprint _).bind fun _ => Run.Agrees.pure _
  | magic =>
    refine (readLast_agrees arguments).bind fun data => ?_
    split
    · exact Run.Agrees.pure _
    · exact Run.Agrees.throw _
  | className =>
    exact (readLast_agrees arguments).bind fun _ => (Run.Agrees.ofExcept _).bind fun _ =>
      (hprint _).bind fun _ => Run.Agrees.pure _
  | count =>
    refine Run.Agrees.get_bind fun host other h => ?_
    obtain ⟨htables, hcount⟩ := h.modules.tally owner
    simp only [hcount]
    exact ((hprint _).bind fun _ => Run.Agrees.pure _) _ _ (h.withModules htables)
  | exit code => exact Run.Agrees.throw _
  | raise fault => exact Run.Agrees.throw _
  | load name =>
    exact (Run.Agrees.ofExcept _).bind fun _ => (hl name).bind fun _ =>
      (hprint _).bind fun _ => Run.Agrees.pure _
  | loaded name =>
    refine Run.Agrees.get_bind fun host other h => ?_
    simp only [h.modules.contains name]
    exact ((hprint _).bind fun _ => Run.Agrees.pure _) _ _ h
  | searchHead =>
    refine Run.Agrees.get_bind fun host other h => ?_
    simp only [h.modules.searchPath]
    split
    · exact ((hprint _).bind fun _ => Run.Agrees.pure _) _ _ h
    · exact ((Run.Agrees.throw _).bind fun _ => Run.Agrees.pure _) _ _ h
  | unlink => exact (unlinkLast_agrees arguments).bind fun _ => Run.Agrees.pure _
  | toDirectory =>
    exact (unlinkLast_agrees arguments).bind fun _ => (Run.Agrees.ofExcept _).bind fun _ =>
      (changeDisk_agrees _).bind fun _ => Run.Agrees.pure _
  | giveBack value => exact Run.Agrees.pure _

/-- A list of actions, up to the first that fails or gives back a value. -/
theorem actAll_agrees {load : Loader} (hl : ∀ name, (load name).Agrees (Twins id id'))
    (owner : String) (arguments : List String) : ∀ actions : List Action,
      (actAll load owner arguments actions).Agrees (Twins id id')
  | [] => Run.Agrees.pure _
  | action :: rest => by
    refine (act_agrees hl owner arguments action).bind fun given => ?_
    cases given with
    | some value => exact Run.Agrees.pure _
    | none => exact actAll_agrees hl owner arguments rest

/-! ## 4. Loading -/

theorem changeModules_agrees {f : ModuleTable → ModuleTable}
    (hf : ∀ t u : ModuleTable, t.Alike u → (f t).Alike (f u)) :
    (changeModules f).Agrees (Twins id id') :=
  Run.Agrees.modify fun _ _ h => h.withModules (hf _ _ h.modules)

theorem enter_agrees {load : Loader} (hl : ∀ name, (load name).Agrees (Twins id id'))
    (name : String) :
    ∀ found : Found, (enter load name found).Agrees (Twins id id')
  | .bare _ => changeModules_agrees fun _ _ h => h.add name _
  | .code form path packagePath => by
    refine (Run.Agrees.query fun host other h => by rw [h.disk]).bind fun script => ?_
    refine (changeModules_agrees fun _ _ h => h.add name _).bind fun _ => ?_
    refine (actAll_agrees hl name [] script.onLoad).attempt.bind fun result => ?_
    cases result with
    | ok value => exact Run.Agrees.pure _
    | error fault =>
      exact (changeModules_agrees fun _ _ h => h.erase name).bind fun _ => Run.Agrees.throw _

/-- Where the modules of a package are found does not depend on numbers. -/
theorem packagePath?_alike (disk : Disk) {t u : ModuleTable} (h : t.Alike u) :
    ∀ components : List String, packagePath? disk t components = packagePath? disk u components
  | [] => congrArg some h.searchPath
  | component :: above => by
    have ih := packagePath?_alike disk h above
    have hm := h.read (Text.join "." (component :: above).reverse)
      (f := fun m => (m.origin, m.packagePath)) fun _ => rfl
    unfold packagePath?
    rw [ih]
    cases ht : t.get? (Text.join "." (component :: above).reverse) with
    | none =>
      rw [ht] at hm
      rw [Option.map_eq_none_iff.mp hm.symm]
    | some m =>
      rw [ht] at hm
      obtain ⟨m', hu, hsame⟩ := Option.map_eq_some_iff.mp hm.symm
      obtain ⟨horigin, hpath⟩ := Prod.mk.inj hsame
      simp only [hu, Option.bind_eq_bind, Option.bind_some, horigin, hpath]

theorem searchPathFor_alike (disk : Disk) {t u : ModuleTable} (h : t.Alike u)
    (name parent : String) :
    searchPathFor disk t name parent = searchPathFor disk u name parent := by
  unfold searchPathFor
  rw [h.searchPath, packagePath?_alike disk h]

theorem bring_agrees {load : Loader} (hl : ∀ name, (load name).Agrees (Twins id id'))
    (name : String) :
    (bring load name).Agrees (Twins id id') := by
  refine Run.Agrees.get_bind fun host other h => ?_
  rw [h.disk, searchPathFor_alike other.disk h.modules, h.modules.resident]
  refine (Run.Agrees.ofExcept _).bind (fun searchPath => ?_) host other h
  split
  · exact changeModules_agrees fun _ _ ha => ha.add name _
  · split
    · exact Run.Agrees.throw _
    · exact enter_agrees hl name _

theorem unlessLoaded_agrees {name : String} {step : Run Unit}
    (hs : step.Agrees (Twins id id')) :
    (do if (← get).modules.contains name then return () else step : Run Unit).Agrees
      (Twins id id') := by
  refine Run.Agrees.get_bind fun host other h => ?_
  rw [h.modules.contains name]
  split
  · exact ⟨rfl, h⟩
  · exact hs host other h

/-- **Loading comes out the same on twins**, whatever code it runs.  The induction is on the depth
to which code may load code. -/
theorem load_agrees : ∀ (depth : Nat) (name : String), (load depth name).Agrees (Twins id id')
  | 0, _ => Run.Agrees.throw _
  | depth + 1, name => by
    have ih := load_agrees depth
    rw [load_succ]
    refine unlessLoaded_agrees ?_
    split
    · exact (ih (parentName name)).bind fun _ => unlessLoaded_agrees (bring_agrees ih name)
    · exact bring_agrees ih name

theorem loadModule_agrees (name : String) : (loadModule name).Agrees (Twins id id') :=
  (Run.Agrees.ofExcept _).bind fun _ => load_agrees maxDepth name

/-- **Calling a routine comes out the same on twins.** -/
theorem callRoutine_agrees (owner : String) (actions : List Action) (arguments : List String) :
    (callRoutine owner actions arguments).Agrees (Twins id id') :=
  actAll_agrees loadModule_agrees owner arguments actions

end Import

/-! ## 5. The scope of a tool -/

namespace ModuleTools

variable {tools : ModuleTools} {id id' : Nat} {host other : Host}

/-- The entry point is found in the files and in what is known of the tool's module. -/
theorem routine_twins (root : Path) (h : Twins id id' host other) :
    tools.routine root host = tools.routine root other := by
  have hm := h.modules.read tools.entry.module (f := fun m => (m.origin, m.members)) fun _ => rfl
  unfold routine
  cases ht : host.modules.get? tools.entry.module with
  | none =>
    rw [ht] at hm
    rw [Option.map_eq_none_iff.mp hm.symm, h.disk]
  | some m =>
    rw [ht] at hm
    obtain ⟨m', hu, hsame⟩ := Option.map_eq_some_iff.mp hm.symm
    obtain ⟨horigin, hmembers⟩ := Prod.mk.inj hsame
    simp only [hu, Option.bind_some, Module.member?, horigin, hmembers, h.disk]

theorem enter_agrees (tools : ModuleTools) (root : Path) :
    (tools.enter root).Agrees (Twins id id') := by
  refine Run.Agrees.get_bind fun host other h => ?_
  rw [h.disk]
  split
  · exact Run.Agrees.throw_bind _ _ host other h
  · refine (Import.loadModule_agrees tools.entry.module).attempt.bind (fun result => ?_)
      host other h
    cases result with
    | ok _ => exact Run.Agrees.query fun _ _ h => routine_twins root h
    | error fault => exact Run.Agrees.throw _

/-- The use of a tool comes out the same on twins if calling the entry point does. -/
def UsesAlike (use : (List String → Run Value) → Run α) : Prop :=
  ∀ (id id' : Nat) (call : List String → Run Value),
    (∀ arguments, (call arguments).Agrees (Twins id id')) → (use call).Agrees (Twins id id')

theorem within_agrees (root : Path) {use : (List String → Run Value) → Run α}
    (hu : UsesAlike use) : (tools.within root use).Agrees (Twins id id') :=
  (enter_agrees tools root).bind fun actions =>
    hu id id' _ fun arguments => Import.callRoutine_agrees tools.entry.module actions arguments

/-- Which of the new modules stops the closing of the tool does not depend on numbers. -/
theorem sweep_alike (disk : Disk) (root : Path) {before before' : ModuleTable}
    (hb : ∀ name, tools.owns name = false → before.contains name = before'.contains name) :
    ∀ {loaded loaded' : List (String × Module)},
      ModuleTable.bare loaded = ModuleTable.bare loaded' →
        (tools.sweep disk root before loaded).2 = (tools.sweep disk root before' loaded').2
  | [], [], _ => rfl
  | [], _ :: _, h => by cases h
  | _ :: _, [], h => by cases h
  | (name, m) :: rest, (name', m') :: rest', h => by
    obtain ⟨hentry, hrest⟩ := List.cons.inj h
    obtain ⟨hname, hm⟩ := Prod.mk.inj hentry
    simp only at hname hm
    subst hname
    have horigin : m.origin = m'.origin := by
      have hsame : m.unnumbered.origin = m'.unnumbered.origin := by rw [hm]
      exact hsame
    have hunloads : tools.unloads disk root before name m =
        tools.unloads disk root before' name m' := by
      unfold unloads
      cases ho : tools.owns name with
      | true => rfl
      | false =>
        unfold loadedFrom
        rw [hb name ho, horigin]
    have ih := sweep_alike disk root hb hrest
    cases hu : tools.unloads disk root before' name m' with
    | error fault => simp only [sweep, hunloads, hu]
    | ok goes => cases goes <;> simp only [sweep, hunloads, hu, ih]

/-- **Opening, using and closing a tool comes out the same** on hosts that are twins once the tool
is open. -/
theorem withEntry_twins {use : (List String → Run Value) → Run α} (hu : UsesAlike use)
    (h : ∀ root, Twins id id' (tools.openedHost root host) (tools.openedHost root other)) :
    ((tools.withEntry use).exec host).1 = ((tools.withEntry use).exec other).1 ∧
      ∃ text, ((tools.withEntry use).exec host).2.console.CapturedBy id text ∧
        ((tools.withEntry use).exec other).2.console.CapturedBy id' text := by
  have hdisk : host.disk = other.disk := (h ⟨.root, []⟩).disk
  cases hroot : tools.checkedRoot host.disk with
  | error fault =>
    have hroot' : tools.checkedRoot other.disk = .error fault := hdisk ▸ hroot
    rw [withEntry_exec_error hroot, withEntry_exec_error hroot']
    exact ⟨rfl, (h ⟨.root, []⟩).console⟩
  | ok root =>
    have hroot' : tools.checkedRoot other.disk = .ok root := hdisk ▸ hroot
    obtain ⟨hresult, hend⟩ := within_agrees root hu _ _ (h root)
    have hforeign : ∀ name, tools.owns name = false →
        host.modules.contains name = other.modules.contains name := by
      intro name ho
      have hopened := (h root).modules.contains name
      simp only [openedHost, contains_opened, ho, Bool.not_false, Bool.true_and] at hopened
      exact hopened
    have hclose : ((tools.close root host.modules).exec (tools.scopeEnd root use host)).1 =
        ((tools.close root other.modules).exec (tools.scopeEnd root use other)).1 := by
      have hdisk' : (tools.scopeEnd root use host).disk = (tools.scopeEnd root use other).disk :=
        hend.disk
      have hloaded : ModuleTable.bare (tools.scopeEnd root use host).modules.loaded =
          ModuleTable.bare (tools.scopeEnd root use other).modules.loaded := hend.modules.loaded
      rw [close_exec, close_exec, hdisk']
      simp only
      rw [sweep_alike _ root hforeign hloaded]
    refine ⟨?_, ?_⟩
    · rw [withEntry_exec hroot, withEntry_exec hroot', Run.exec_followedBy_result,
        Run.exec_followedBy_result, hresult]
      unfold scopeEnd at hclose
      rw [hclose]
    · rw [withEntry_host hroot, withEntry_host hroot']
      exact hend.console

end ModuleTools

end Dissect
