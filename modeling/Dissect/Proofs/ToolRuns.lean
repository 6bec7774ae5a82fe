/-
# Runs of a tool

What holds of every run of a tool, whichever engine drives it: a property of the host that tool code
upholds, and that has nothing to do with modules, holds when the run is over (`invoke_keeps`) and at
every moment at which tool code is at work (`Backend.of_worksAt`).

The moments are described by `Import.ActsAt` and `Import.LoadsAt`: a host is one of them if code,
started on an earlier host, comes to carry out an action on it, be it an action of its own or one of
a module that it loads, to any depth.  A child process is started at one moment only, that of the
call.
-/
import Dissect.Invocation
import Dissect.Proofs.ToolScope

namespace Dissect

open Files (Disk)

variable {α : Type} {P : Host → Prop}

/-! ## 1. Properties that have nothing to do with modules -/

/-- Tool code upholds the property, whatever it does to the table of modules. -/
structure Import.Indifferent (P : Host → Prop) : Prop where
  write : ∀ host sink s console, P host → host.console.write sink s = .ok console →
    P { host with console }
  modules : ∀ host modules, P host → P { host with modules }

/-- For such a property every name is free. -/
theorem Import.Indifferent.upheld (h : Import.Indifferent P) :
    Import.Upheld P (fun _ => True) where
  write := h.write
  vacant := fun _ _ _ _ => trivial
  add := fun host _ _ hp _ _ => h.modules host _ hp
  erase := fun host _ hp _ => h.modules host _ hp
  tally := fun host _ hp _ => h.modules host _ hp

/-! ## 2. The run as a whole -/

/-- Opening a tool, using it and closing it. -/
theorem ModuleTools.withEntry_keeps (h : Import.Indifferent P) (tools : ModuleTools)
    {use : (List String → Run Value) → Run α}
    (hu : ∀ call : List String → Run Value,
      (∀ arguments, Import.Spares P arguments → (call arguments).Keeps P) → (use call).Keeps P) :
    (tools.withEntry use).Keeps P := by
  refine (Run.Keeps.query _).bind fun root => Run.Keeps.get.bind fun before => ?_
  refine (Import.changeModules_keeps fun host hp => h.modules host _ hp).bind fun _ => ?_
  refine Run.Keeps.followedBy ?_ fun host hp => ?_
  · exact (ModuleTools.enter_keeps h.upheld root).bind fun actions =>
      hu _ fun arguments hs => Import.callRoutine_keeps h.upheld trivial actions hs
  · rw [ModuleTools.close_exec]
    exact h.modules host _ hp

theorem Command.forward_keeps {write : Console → String → Except Fault Console}
    (hw : ∀ host s console, P host → write host.console s = .ok console → P { host with console })
    (s : String) : (Command.forward write s).Keeps P := by
  unfold Command.forward
  split
  · exact Run.Keeps.pure _
  · refine Run.Keeps.get_bind fun host hp => ?_
    cases hc : write host.console s with
    | ok console => exact hw host s console hp hc
    | error fault => exact hp

/-- Calling a program. -/
theorem Command.call_keeps (h : Import.Indifferent P) (command : List String)
    (environment : Command.Environment) (arguments : List String) :
    (Command.call command environment arguments).Keeps P := by
  refine (Run.Keeps.query _).bind fun result => ?_
  refine (Command.forward_keeps (fun host s console => h.write host _ s console) _).bind fun _ =>
    (Command.forward_keeps (fun host s console => h.write host _ s console) _).bind fun _ => ?_
  split
  · exact Run.Keeps.throw _
  · exact Run.Keeps.pure _

/-- **A run of a tool keeps a property that tool code upholds**, if the property survives what code
can do to the class file. -/
theorem Invocation.invoke_keeps (h : Import.Indifferent P) (b : Backend) (root resource : Path)
    (hs : Import.Spares P (b.argumentsFor resource)) :
    (Invocation.invoke b root resource).Keeps P := by
  unfold invoke Backend.withEntry
  split
  · refine (Run.Keeps.query _).bind fun command => (Run.Keeps.query _).bind fun environment => ?_
    exact (Command.call_keeps h _ _ _).attempt.bind fun ending => Run.Keeps.ofExcept _
  · refine ModuleTools.withEntry_keeps h _ fun call hc => ?_
    exact ((hc _ hs).bind fun _ => Run.Keeps.pure _).attempt.bind fun ending =>
      Run.Keeps.ofExcept _

/-! ## 3. The moments at which tool code is at work -/

namespace Import

/-- Code that is started on a host comes to carry out an action at a moment: one of its own, or one
of a module that it loads. -/
inductive ActsAt (loads : String → Host → Host → Prop) (load : Loader) (owner : String)
    (arguments : List String) : List Action → Host → Host → Prop where
  | own (action : Action) (rest : List Action) (host : Host) :
    ActsAt loads load owner arguments (action :: rest) host host
  | loading {name : String} {host now : Host} (rest : List Action) :
    loads name host now → ActsAt loads load owner arguments (.load name :: rest) host now
  | later {action : Action} {rest : List Action} {host next now : Host} :
    (act load owner arguments action).exec host = (.ok none, next) →
      ActsAt loads load owner arguments rest next now →
        ActsAt loads load owner arguments (action :: rest) host now

/-- The code of a module that is loaded for the first time comes to act at a moment.  The module is
in the table by then. -/
def BringsAt (loads : String → Host → Host → Prop) (load : Loader) (name : String)
    (host now : Host) : Prop :=
  ∃ (searchPath : List String) (form : CodeForm) (path : String)
    (packagePath : Option (List String)) (script : Script),
    searchPathFor host.disk host.modules name (parentName name) = .ok searchPath ∧
    find host.disk (lastComponent name) searchPath = some (.code form path packagePath) ∧
    scriptAt host.disk name form path = .ok script ∧
    ActsAt loads load name [] script.onLoad
      { host with
        modules := host.modules.add name
          { serial := 0, origin := some path, packagePath, members := script.members } } now

/-- Loading a module comes to carry out an action at a moment: one of its package, or, once that is
loaded, one of its own. -/
def LoadsAt : Nat → String → Host → Host → Prop
  | 0, _, _, _ => False
  | depth + 1, name, host, now =>
    host.modules.contains name = false ∧
      ((parentName name = "" ∧ BringsAt (LoadsAt depth) (load depth) name host now) ∨
        (parentName name ≠ "" ∧
          (LoadsAt depth (parentName name) host now ∨
            ∃ ready, (load depth (parentName name)).exec host = (.ok (), ready) ∧
              ready.modules.contains name = false ∧
              BringsAt (LoadsAt depth) (load depth) name ready now)))

variable {free : String → Prop} {loads : String → Host → Host → Prop}

/-- What tool code upholds holds whenever code acts. -/
theorem of_actsAt (h : Upheld P free) {load : Loader} (hl : ∀ name, (load name).Keeps P)
    (hloads : ∀ name host now, loads name host now → P host → P now) {owner : String}
    (ho : free owner) {arguments : List String} (hs : Spares P arguments) {actions : List Action}
    {host now : Host} (ha : ActsAt loads load owner arguments actions host now) (hp : P host) :
    P now := by
  induction ha with
  | own action rest host => exact hp
  | loading rest hload => exact hloads _ _ _ hload hp
  | @later action rest host next now hact _ ih =>
    have hnext := act_keeps h hl ho hs action host hp
    rw [hact] at hnext
    exact ih hnext

theorem of_bringsAt (h : Upheld P free) {load : Loader} (hl : ∀ name, (load name).Keeps P)
    (hloads : ∀ name host now, loads name host now → P host → P now) {name : String}
    {host now : Host} (hv : host.modules.contains name = false)
    (hb : BringsAt loads load name host now) (hp : P host) : P now := by
  obtain ⟨searchPath, form, path, packagePath, script, -, -, hscript, hacts⟩ := hb
  have hf := h.vacant host name hp hv
  exact of_actsAt h hl hloads hf Spares.nil hacts (h.add host name _ hp hf (.code packagePath hscript))

/-- What tool code upholds holds whenever the code of a module acts that is being loaded. -/
theorem of_loadsAt (h : Upheld P free) : ∀ (depth : Nat) (name : String) (host now : Host),
    LoadsAt depth name host now → P host → P now
  | 0, _, _, _, hl, _ => hl.elim
  | depth + 1, name, host, now, hl, hp => by
    have ih := of_loadsAt h depth
    have hkeeps := load_keeps h depth
    obtain ⟨hv, ⟨-, hown⟩ | ⟨-, hpackage | ⟨ready, hload, hready, hown⟩⟩⟩ := hl
    · exact of_bringsAt h hkeeps ih hv hown hp
    · exact ih _ host now hpackage hp
    · have hp' := hkeeps (parentName name) host hp
      rw [hload] at hp'
      exact of_bringsAt h hkeeps ih hready hown hp'

end Import

/-- The tool is at work at a moment, when its entry point is called with some arguments on a host: a
program is started there, or tool code comes to act, be it that the modules of the tool are being
loaded or that the entry point runs. -/
def Backend.WorksAt (b : Backend) (root : Path) (arguments : List String) (host now : Host) :
    Prop :=
  match b.engine with
  | .javap => now = host
  | .module entry entryText =>
    let tools : ModuleTools := { root, entry, entryText }
    ∃ base, tools.checkedRoot host.disk = .ok base ∧
      (Import.LoadsAt Import.maxDepth entry.module (tools.openedHost base host) now ∨
        ∃ actions entered,
          (tools.enter base).exec (tools.openedHost base host) = (.ok actions, entered) ∧
          Import.ActsAt (Import.LoadsAt Import.maxDepth) Import.loadModule entry.module arguments
            actions entered now)

/-- **Whenever the tool is at work, what tool code upholds holds.** -/
theorem Backend.of_worksAt (h : Import.Indifferent P) {b : Backend} {root : Path}
    {arguments : List String} (hs : Import.Spares P arguments) {host now : Host}
    (hw : b.WorksAt root arguments host now) (hp : P host) : P now := by
  unfold WorksAt at hw
  split at hw
  · rw [hw]
    exact hp
  · rename_i entry entryText _
    obtain ⟨base, -, hwork⟩ := hw
    have hopened : P ((⟨root, entry, entryText⟩ : ModuleTools).openedHost base host) :=
      h.modules host _ hp
    obtain hload | ⟨actions, entered, henter, hacts⟩ := hwork
    · exact Import.of_loadsAt h.upheld _ _ _ _ hload hopened
    · have hkeeps : ((⟨root, entry, entryText⟩ : ModuleTools).enter base).Keeps P :=
        ModuleTools.enter_keeps h.upheld base
      have hentered := hkeeps _ hopened
      rw [henter] at hentered
      exact Import.of_actsAt h.upheld (Import.loadModule_keeps h.upheld)
        (Import.of_loadsAt h.upheld _) trivial hs hacts hentered

end Dissect
