/-
# What tool code writes

The texts that tool code writes, in order, can be told from the code and from the host on which it
starts.  An action writes at most one text of its own, and one that loads a module comes after all
that was written by the loading.  A list of actions writes what each of them writes, up to the first
that fails or gives back a value.  Loading writes first what the package of the module writes, then
what the code of the module does.

**A capture gets exactly these texts**, whichever stream each of them is written to and however the
code ends (`Import.load_writes`, `Import.actAll_writes`): each step adds its own texts at the end of
what the capture holds already (`Run.Writes`), and a step that is never reached adds nothing.
-/
import Dissect.Proofs.Captures
import Dissect.Proofs.Endings

namespace Dissect

/-! ## 1. Steps that write -/

namespace Run

variable {α β : Type} {step : Run α} {next : α → Run β} {host : Host} {texts : List String}

/-- The texts that are written after a step: none if the step fails. -/
def following (step : Run α) (host : Host) (later : α → Host → List String) : List String :=
  match step.exec host with
  | (.ok a, after) => later a after
  | (.error _, _) => []

/-- On the host the step writes the texts: while a capture is on, they are added to what the capture
holds. -/
def Writes (step : Run α) (host : Host) (texts : List String) : Prop :=
  ∀ id text, host.console.Records id text →
    (step.exec host).2.console.Records id (text ++ String.join texts)

namespace Writes

/-- A step that leaves the streams alone writes nothing. -/
theorem of_console (h : (step.exec host).2.console = host.console) : step.Writes host [] := by
  intro id text hrecords
  rw [h, String.join_nil, String.append_empty]
  exact hrecords

theorem of_keeps (h : step.Keeps fun now => now.console = host.console) : step.Writes host [] :=
  of_console (h host rfl)

/-- One step after another writes what the first writes, and what the second does if it is
reached. -/
theorem bind {later : α → Host → List String} (h : step.Writes host texts)
    (hn : ∀ a after, step.exec host = (.ok a, after) → (next a).Writes after (later a after)) :
    (step >>= next).Writes host (texts ++ step.following host later) := by
  intro id text hrecords
  have hfirst := h id text hrecords
  unfold following
  rw [exec_bind]
  cases he : step.exec host with
  | mk result after =>
    rw [he] at hfirst
    cases result with
    | error fault =>
      simp only [List.append_nil]
      exact hfirst
    | ok a =>
      simp only [String.join_append, ← String.append_assoc]
      exact hn a after he id _ hfirst

/-- What follows a step may write nothing. -/
theorem bind_silent (h : step.Writes host texts) (hn : ∀ a after, (next a).Writes after []) :
    (step >>= next).Writes host texts := by
  have hnone : step.following host (fun _ _ => []) = [] := by
    unfold following
    split <;> rfl
  have hboth : (step >>= next).Writes host (texts ++ step.following host fun _ _ => []) :=
    h.bind fun a after _ => hn a after
  rw [hnone, List.append_nil] at hboth
  exact hboth

/-- A step whose result is known, and that writes nothing itself. -/
theorem bind_ok {a : α} {after : Host} (h : step.exec host = (.ok a, after))
    (hc : after.console = host.console) (hn : (next a).Writes after texts) :
    (step >>= next).Writes host texts := by
  intro id text hrecords
  rw [exec_bind_ok h]
  exact hn id text (by rw [hc]; exact hrecords)

/-- Nothing is written after a step that fails. -/
theorem bind_error {fault : Fault} {after : Host} (h : step.exec host = (.error fault, after))
    (hc : after.console = host.console) : (step >>= next).Writes host [] :=
  of_console (by rw [exec_bind_error h]; exact hc)

theorem attempt (h : step.Writes host texts) : (Run.attempt step).Writes host texts := h

protected theorem pure (a : α) (host : Host) : (Pure.pure a : Run α).Writes host [] :=
  of_console rfl

protected theorem throw (fault : Fault) (host : Host) :
    (MonadExcept.throw fault : Run α).Writes host [] := of_console rfl

protected theorem ofExcept (result : Except Fault α) (host : Host) :
    (Run.ofExcept result).Writes host [] := of_console (by rw [exec_ofExcept])

theorem get_bind {next : Host → Run β} (h : (next host).Writes host texts) :
    ((MonadState.get : Run Host) >>= next).Writes host texts := h

protected theorem query (f : Host → Except Fault α) (host : Host) : (Run.query f).Writes host [] :=
  of_console (by rw [exec_query])

end Writes

end Run

/-! ## 2. The texts -/

namespace Import

/-- The texts of a loader: what loading a module of a name on a host writes. -/
abbrev LoaderTexts := String → Host → List String

section

variable (load : Loader) (loadTexts : LoaderTexts) (owner : String) (arguments : List String)

/-- What one action writes on a host. -/
def actTexts (host : Host) : Action → List String
  | .out s => [s]
  | .err s => [s]
  | .arguments => [Text.join " " arguments ++ "\n"]
  | .hex => (readLast arguments).following host fun data _ => [Text.hex data ++ "\n"]
  | .className =>
    (readLast arguments).following host fun data after =>
      (Run.ofExcept (asciiText (data.drop 4))).following after fun name _ =>
        ["public class " ++ name ++ "\n"]
  | .count => ["call " ++ toString (host.modules.tally owner).2 ++ "\n"]
  | .load name =>
    (Run.ofExcept (demandFullName name)).following host fun _ after =>
      loadTexts name after ++ (load name).following after fun _ _ => ["imported " ++ name ++ "\n"]
  | .loaded name =>
    ["loaded " ++ name ++ " " ++ (Value.bool (host.modules.contains name)).text ++ "\n"]
  | .searchHead =>
    match host.modules.searchPath with
    | head :: _ => ["path0 " ++ head ++ "\n"]
    | [] => []
  | .magic | .exit _ | .raise _ | .unlink | .toDirectory | .giveBack _ => []

/-- What actions write, one after the other, until one fails or gives back a value. -/
def allTexts : Host → List Action → List String
  | _, [] => []
  | host, action :: rest =>
    actTexts load loadTexts owner arguments host action ++
      (act load owner arguments action).following host fun given after =>
        if given.isSome then [] else allTexts after rest

/-- What loading the module that was found under a name writes: what its code does. -/
def enterTexts (name : String) (host : Host) : Found → List String
  | .bare _ => []
  | .code form path packagePath =>
    match scriptAt host.disk name form path with
    | .error _ => []
    | .ok script =>
      let added : Module := { serial := 0, origin := some path, packagePath,
                              members := script.members }
      allTexts load loadTexts name [] { host with modules := host.modules.add name added }
        script.onLoad

/-- What loading a module writes whose package is loaded. -/
def bringTexts (name : String) (host : Host) : List String :=
  match searchPathFor host.disk host.modules name (parentName name) with
  | .error _ => []
  | .ok searchPath =>
    match host.modules.resident.lookup name, find host.disk (lastComponent name) searchPath with
    | none, some found => enterTexts load loadTexts name host found
    | _, _ => []

end

/-- What loading a module writes: nothing if it is loaded already, and else first what its package
writes. -/
def loadTexts : Nat → LoaderTexts
  | 0, _, _ => []
  | depth + 1, name, host =>
    if host.modules.contains name then []
    else if parentName name != "" then
      loadTexts depth (parentName name) host ++
        (load depth (parentName name)).following host fun _ after =>
          if after.modules.contains name then []
          else bringTexts (load depth) (loadTexts depth) name after
    else bringTexts (load depth) (loadTexts depth) name host

/-- What loading a module by its full name writes. -/
def loadModuleTexts : LoaderTexts := fun name host =>
  (Run.ofExcept (demandFullName name)).following host fun _ after => loadTexts maxDepth name after

/-- What calling a routine of a module writes. -/
def routineTexts (owner : String) (arguments : List String) (host : Host) (actions : List Action) :
    List String :=
  allTexts loadModule loadModuleTexts owner arguments host actions

/-! ## 3. Actions -/

section

variable {load : Loader} {texts : LoaderTexts} {owner : String} {arguments : List String}

theorem print_writes (s : String) (host : Host) : (print s).Writes host [s] := by
  intro id text hrecords
  obtain ⟨console, hprint, hafter⟩ := print_records hrecords s
  rw [hprint, String.join_cons, String.join_nil, String.append_empty]
  exact hafter

theorem complain_writes (s : String) (host : Host) : (complain s).Writes host [s] := by
  intro id text hrecords
  obtain ⟨console, hcomplain, hafter⟩ := complain_records hrecords s
  rw [hcomplain, String.join_cons, String.join_nil, String.append_empty]
  exact hafter

theorem readLast_writes (arguments : List String) (host : Host) : (readLast arguments).Writes host [] :=
  (Run.Writes.ofExcept _ host).bind_silent fun _ _ => Run.Writes.query _ _

theorem unlinkLast_writes (arguments : List String) (host : Host) :
    (unlinkLast arguments).Writes host [] :=
  Run.Writes.of_keeps (unlinkLast_keeps ⟨fun _ _ _ h _ _ => h, fun _ _ _ h _ _ => h⟩)

/-- A step that prints and has nothing to give back. -/
theorem printed_writes (s : String) (host : Host) :
    (do print s; return none : Run Given).Writes host [s] :=
  (print_writes s host).bind_silent fun _ _ => Run.Writes.pure _ _

/-- **One action writes its texts.** -/
theorem act_writes (hl : ∀ name host, (load name).Writes host (texts name host)) (host : Host)
    (action : Action) :
    (act load owner arguments action).Writes host
      (actTexts load texts owner arguments host action) := by
  cases action with
  | out s => exact printed_writes s host
  | err s => exact (complain_writes s host).bind_silent fun _ _ => Run.Writes.pure _ _
  | arguments => exact printed_writes _ host
  | hex => exact (readLast_writes arguments host).bind fun data after _ => printed_writes _ after
  | magic =>
    refine (readLast_writes arguments host).bind_silent fun data after => ?_
    split
    · exact Run.Writes.pure _ _
    · exact Run.Writes.throw _ _
  | className =>
    exact (readLast_writes arguments host).bind fun data after _ =>
      (Run.Writes.ofExcept _ after).bind fun name last _ => printed_writes _ last
  | count => exact printed_writes _ { host with modules := (host.modules.tally owner).1 }
  | exit code => exact Run.Writes.throw _ _
  | raise fault => exact Run.Writes.throw _ _
  | load name =>
    exact (Run.Writes.ofExcept _ host).bind fun _ after _ =>
      (hl name after).bind fun _ last _ => printed_writes _ last
  | loaded name => exact Run.Writes.get_bind (printed_writes _ host)
  | searchHead =>
    refine Run.Writes.get_bind ?_
    unfold actTexts
    cases host.modules.searchPath with
    | nil => exact Run.Writes.throw _ _
    | cons head rest => exact printed_writes _ host
  | unlink => exact (unlinkLast_writes arguments host).bind_silent fun _ _ => Run.Writes.pure _ _
  | toDirectory =>
    refine (unlinkLast_writes arguments host).bind_silent fun _ after => Run.Writes.of_keeps ?_
    exact withLast_keeps arguments fun _ _ =>
      (Run.Keeps.changeDisk fun _ _ h _ => h).bind fun _ => Run.Keeps.pure _
  | giveBack value => exact Run.Writes.pure _ _

/-- **Actions write their texts, one after the other.** -/
theorem actAll_writes (hl : ∀ name host, (load name).Writes host (texts name host)) :
    ∀ (actions : List Action) (host : Host), (actAll load owner arguments actions).Writes host
      (allTexts load texts owner arguments host actions)
  | [], host => Run.Writes.pure _ host
  | action :: rest, host => by
    refine (act_writes hl host action).bind fun given after _ => ?_
    cases given with
    | some value => exact Run.Writes.pure _ after
    | none => exact actAll_writes hl rest after

/-! ## 4. Loading -/

theorem changeModules_writes (f : ModuleTable → ModuleTable) (host : Host) :
    (changeModules f).Writes host [] := Run.Writes.of_console rfl

/-- Loading what was found writes what its code does. -/
theorem enter_writes (hl : ∀ name host, (load name).Writes host (texts name host)) (name : String)
    (host : Host) (found : Found) :
    (enter load name found).Writes host (enterTexts load texts name host found) := by
  cases found with
  | bare directories => exact changeModules_writes _ host
  | code form path packagePath =>
    simp only [enterTexts]
    have hquery := Run.exec_query (fun host => scriptAt host.disk name form path) host
    cases hs : scriptAt host.disk name form path with
    | error fault =>
      rw [hs] at hquery
      exact Run.Writes.bind_error hquery rfl
    | ok script =>
      rw [hs] at hquery
      refine Run.Writes.bind_ok hquery rfl ?_
      refine Run.Writes.bind_ok (a := ()) (Run.exec_modify _ _) rfl ?_
      refine (actAll_writes hl script.onLoad _).attempt.bind_silent fun result after => ?_
      cases result with
      | ok _ => exact Run.Writes.pure _ after
      | error fault =>
        exact (changeModules_writes _ after).bind_silent fun _ _ => Run.Writes.throw _ _

theorem bring_writes (hl : ∀ name host, (load name).Writes host (texts name host)) (name : String)
    (host : Host) : (bring load name).Writes host (bringTexts load texts name host) := by
  refine Run.Writes.get_bind ?_
  unfold bringTexts
  have hpath := Run.exec_ofExcept (searchPathFor host.disk host.modules name (parentName name)) host
  cases hs : searchPathFor host.disk host.modules name (parentName name) with
  | error fault =>
    rw [hs] at hpath
    exact Run.Writes.bind_error hpath rfl
  | ok searchPath =>
    rw [hs] at hpath
    refine Run.Writes.bind_ok hpath rfl ?_
    simp only
    cases host.modules.resident.lookup name with
    | some own => exact changeModules_writes _ host
    | none =>
      simp only
      cases find host.disk (lastComponent name) searchPath with
      | none => exact Run.Writes.throw _ _
      | some found => exact enter_writes hl name host found

end

/-- **Loading writes its texts**, whatever code it runs.  The induction is on the depth to which
code may load code. -/
theorem load_writes : ∀ (depth : Nat) (name : String) (host : Host),
    (load depth name).Writes host (loadTexts depth name host)
  | 0, _, host => Run.Writes.throw _ host
  | depth + 1, name, host => by
    have ih := load_writes depth
    rw [load_succ, loadTexts]
    refine Run.Writes.get_bind ?_
    split
    · exact Run.Writes.pure _ host
    · split
      · refine (ih (parentName name) host).bind fun _ after _ => Run.Writes.get_bind ?_
        split
        · exact Run.Writes.pure _ after
        · exact bring_writes ih name after
      · exact bring_writes ih name host

theorem loadModule_writes (name : String) (host : Host) :
    (loadModule name).Writes host (loadModuleTexts name host) :=
  (Run.Writes.ofExcept _ host).bind fun _ after _ => load_writes maxDepth name after

/-- **Calling a routine writes its texts.** -/
theorem callRoutine_writes (owner : String) (actions : List Action) (arguments : List String)
    (host : Host) : (callRoutine owner actions arguments).Writes host
      (routineTexts owner arguments host actions) :=
  actAll_writes loadModule_writes actions host

end Import

/-! ## 5. Runs of a tool -/

namespace ModuleTools

/-- What finding the entry point writes: what loading its module does, if it is found. -/
def enterTexts (tools : ModuleTools) (root : Path) (host : Host) : List String :=
  if tools.isFound host.disk root then Import.loadModuleTexts tools.entry.module host else []

theorem enter_writes (tools : ModuleTools) (root : Path) (host : Host) :
    (tools.enter root).Writes host (tools.enterTexts root host) := by
  unfold enterTexts
  have hload := Import.loadModule_writes tools.entry.module host
  intro id text hrecords
  have hafter := hload id text hrecords
  rw [enter_exec]
  split
  · cases hl : (Import.loadModule tools.entry.module).exec host with
    | mk result loaded =>
      rw [hl] at hafter
      cases result <;> exact hafter
  · rw [String.join_nil, String.append_empty]
    exact hrecords

/-- What a run of the tool writes: first what is written while it is loaded, then what the call of
its entry point writes. -/
def runTexts (tools : ModuleTools) (root : Path) (arguments : List String) (host : Host) :
    List String :=
  tools.enterTexts root host ++
    (tools.enter root).following host fun actions entered =>
      Import.routineTexts tools.entry.module arguments entered actions

end ModuleTools

/-- **A run of a tool made of modules writes its texts**, however it ends. -/
theorem Invocation.invoke_writes {b : Backend} {base : Path} (root resource : Path) (host : Host)
    {entry : EntryPoint} {entryText : String} (hengine : b.engine = .module entry entryText)
    (hbase : ({ root, entry, entryText } : ModuleTools).checkedRoot host.disk = .ok base) :
    (invoke b root resource).Writes host
      (({ root, entry, entryText } : ModuleTools).runTexts base (b.argumentsFor resource)
        (({ root, entry, entryText } : ModuleTools).openedHost base host)) := by
  intro id text hrecords
  have hwithin := ((ModuleTools.enter_writes { root, entry, entryText } base
    (({ root, entry, entryText } : ModuleTools).openedHost base host)).bind fun actions entered _ =>
      (((Import.callRoutine_writes entry.module actions (b.argumentsFor resource) entered).bind_silent
        fun _ after => Run.Writes.pure () after).attempt.bind_silent fun ending after =>
          Run.Writes.ofExcept (settle b.signals ending) after)) id text hrecords
  rw [invoke_eq, Backend.withEntry_module hengine, ModuleTools.withEntry_exec hbase,
    Run.exec_followedBy_host, ModuleTools.close_exec]
  exact hwithin

end Dissect
