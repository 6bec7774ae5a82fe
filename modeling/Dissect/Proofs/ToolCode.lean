/-
# What tool code can do

Tool code is a list of actions, and loading a module runs more of it, to any depth.  Whatever it is
made of, it touches the host in few places: it writes to a stream, it enters, takes out or counts
with a module, and it removes or replaces the file that its last argument names.  A property of
the host that survives each of these survives all tool code (`Import.callRoutine_keeps`).

A module is only ever entered under a name at which nothing is loaded, and code counts only under
the name for which it runs; so a property may insist on the modules that were there at the start.
Code that runs because a module is loaded has no arguments, and cannot touch a file at all.
-/
import Dissect.Proofs.ModuleTables
import Dissect.Proofs.Steps

namespace Dissect.Import

open Files (Disk Errno)

variable {P : Host → Prop} {free : String → Prop}

/-! ## 1. Properties that tool code upholds -/

/-- What can be entered under a name: the module of a file with code, a package without a file, or a
module that is part of the runtime. -/
inductive Enters (host : Host) (name : String) : Module → Prop
  | code {form : CodeForm} {path : String} (packagePath : Option (List String)) {script : Script} :
    scriptAt host.disk name form path = .ok script →
      Enters host name { serial := 0, origin := some path, packagePath, members := script.members }
  | bare {searchPath directories : List String} :
    searchPathFor host.disk host.modules name (parentName name) = .ok searchPath →
    find host.disk (lastComponent name) searchPath = some (.bare directories) →
      Enters host name { serial := 0, packagePath := some directories }
  | resident {own : Resident} : host.modules.resident.lookup name = some own →
      Enters host name { serial := 0, origin := own.origin, members := own.members }

/-- The property survives every write, and every change of the module table under a free name.  All
names at which nothing is loaded are free. -/
structure Upheld (P : Host → Prop) (free : String → Prop) : Prop where
  write : ∀ host sink s console, P host → host.console.write sink s = .ok console →
    P { host with console }
  vacant : ∀ host name, P host → host.modules.contains name = false → free name
  add : ∀ host name m, P host → free name → Enters host name m →
    P { host with modules := host.modules.add name m }
  erase : ∀ host name, P host → free name → P { host with modules := host.modules.erase name }
  tally : ∀ host name, P host → free name →
    P { host with modules := (host.modules.tally name).1 }

/-- The property survives what code can do to the file that its last argument names. -/
structure Spares (P : Host → Prop) (arguments : List String) : Prop where
  unlink : ∀ host path disk, P host → arguments.getLast? = some path →
    host.disk.unlink path = .ok disk → P { host with disk }
  makeDirectory : ∀ host path disk, P host → arguments.getLast? = some path →
    host.disk.makeDirectory path = .ok disk → P { host with disk }

/-- Code without arguments cannot touch a file. -/
theorem Spares.nil : Spares P [] where
  unlink := fun _ _ _ _ h _ => by cases h
  makeDirectory := fun _ _ _ _ h _ => by cases h

/-! ## 2. Actions -/

theorem print_keeps (h : Upheld P free) (s : String) : (print s).Keeps P := by
  refine Run.Keeps.get_bind fun host hp => ?_
  cases hw : host.console.writeOut s with
  | ok console => exact h.write host _ s console hp hw
  | error fault => exact hp

theorem complain_keeps (h : Upheld P free) (s : String) : (complain s).Keeps P := by
  refine Run.Keeps.get_bind fun host hp => ?_
  cases hw : host.console.writeErr s with
  | ok console => exact h.write host _ s console hp hw
  | error fault => exact hp

theorem readLast_keeps (arguments : List String) : (readLast arguments).Keeps P :=
  (Run.Keeps.ofExcept _).bind fun _ => Run.Keeps.query _

theorem name_ok {α : Type} {file : String} {result : Except Errno α} {a : α}
    (h : Errno.name file result = .ok a) : result = .ok a := by
  cases result with
  | ok b => exact congrArg Except.ok (Except.ok.inj h)
  | error e => cases h

theorem lastArgument_ok {arguments : List String} {path : String}
    (h : lastArgument arguments = .ok path) : arguments.getLast? = some path := by
  unfold lastArgument at h
  cases ha : arguments.getLast? with
  | none => rw [ha] at h; cases h
  | some last => rw [ha] at h; cases h; rfl

/-- What is done with the last argument is done with that very path. -/
theorem withLast_keeps {β : Type} (arguments : List String) {next : String → Run β}
    (hn : ∀ path, arguments.getLast? = some path → (next path).Keeps P) :
    (Run.ofExcept (lastArgument arguments) >>= next).Keeps P := by
  refine (Run.Keeps.ofExcept _).bind_knowing (fun host path after _ hl => ?_) hn
  rw [Run.exec_ofExcept] at hl
  exact lastArgument_ok (congrArg Prod.fst hl)

theorem unlinkLast_keeps {arguments : List String} (hs : Spares P arguments) :
    (unlinkLast arguments).Keeps P :=
  withLast_keeps arguments fun path ha =>
    Run.Keeps.changeDisk fun host disk hp hd => hs.unlink host path disk hp ha (name_ok hd)

/-- One action, for a module that counts under a free name. -/
theorem act_keeps (h : Upheld P free) {load : Loader} (hl : ∀ name, (load name).Keeps P)
    {owner : String} (ho : free owner) {arguments : List String} (hs : Spares P arguments)
    (action : Action) : (act load owner arguments action).Keeps P := by
  have hprint := print_keeps h
  cases action with
  | out s => exact (hprint s).bind fun _ => Run.Keeps.pure _
  | err s => exact (complain_keeps h s).bind fun _ => Run.Keeps.pure _
  | arguments => exact (hprint _).bind fun _ => Run.Keeps.pure _
  | hex =>
    exact (readLast_keeps arguments).bind fun _ => (hprint _).bind fun _ => Run.Keeps.pure _
  | magic =>
    refine (readLast_keeps arguments).bind fun data => ?_
    split
    · exact Run.Keeps.pure _
    · exact Run.Keeps.throw _
  | className =>
    exact (readLast_keeps arguments).bind fun _ => (Run.Keeps.ofExcept _).bind fun _ =>
      (hprint _).bind fun _ => Run.Keeps.pure _
  | count =>
    refine Run.Keeps.get_bind fun host hp => ?_
    have ht := h.tally host owner hp ho
    exact ((hprint _).bind fun _ => Run.Keeps.pure _) _ ht
  | exit code => exact Run.Keeps.throw _
  | raise fault => exact Run.Keeps.throw _
  | load name =>
    exact (Run.Keeps.ofExcept _).bind fun _ => (hl name).bind fun _ =>
      (hprint _).bind fun _ => Run.Keeps.pure _
  | loaded name =>
    exact Run.Keeps.get.bind fun _ => (hprint _).bind fun _ => Run.Keeps.pure _
  | searchHead =>
    refine Run.Keeps.get.bind fun host => ?_
    split
    · exact (hprint _).bind fun _ => Run.Keeps.pure _
    · exact (Run.Keeps.throw _).bind fun _ => Run.Keeps.pure _
  | unlink => exact (unlinkLast_keeps hs).bind fun _ => Run.Keeps.pure _
  | toDirectory =>
    refine (unlinkLast_keeps hs).bind fun _ => ?_
    exact withLast_keeps arguments fun path ha =>
      (Run.Keeps.changeDisk fun host disk hp hd =>
        hs.makeDirectory host path disk hp ha (name_ok hd)).bind fun _ => Run.Keeps.pure _
  | giveBack value => exact Run.Keeps.pure _

/-- A list of actions, up to the first that fails or gives back a value. -/
theorem actAll_keeps (h : Upheld P free) {load : Loader} (hl : ∀ name, (load name).Keeps P)
    {owner : String} (ho : free owner) {arguments : List String} (hs : Spares P arguments) :
    ∀ actions : List Action, (actAll load owner arguments actions).Keeps P
  | [] => Run.Keeps.pure _
  | action :: rest => by
    refine (act_keeps h hl ho hs action).bind fun given => ?_
    cases given with
    | some value => exact Run.Keeps.pure _
    | none => exact actAll_keeps h hl ho hs rest

/-! ## 3. Loading -/

theorem exec_changeModules (f : ModuleTable → ModuleTable) (host : Host) :
    (changeModules f).exec host = (.ok (), { host with modules := f host.modules }) := rfl

theorem changeModules_keeps {f : ModuleTable → ModuleTable}
    (hf : ∀ host, P host → P { host with modules := f host.modules }) :
    (changeModules f).Keeps P := hf

/-- Loading what was found under a name at which nothing is loaded: a module whose code fails is
taken out again. -/
theorem enter_keeps (h : Upheld P free) {load : Loader} (hl : ∀ name, (load name).Keeps P)
    {name : String} (hf : free name) {host : Host} (hp : P host) {searchPath : List String}
    (hpath : searchPathFor host.disk host.modules name (parentName name) = .ok searchPath) :
    ∀ found : Found, find host.disk (lastComponent name) searchPath = some found →
      P ((enter load name found).exec host).2
  | .bare _, hfound => h.add host name _ hp hf (.bare hpath hfound)
  | .code form path packagePath, _ => by
    unfold enter
    cases hscript : scriptAt host.disk name form path with
    | error fault =>
      rw [Run.exec_bind_error (by rw [Run.exec_query, hscript])]
      exact hp
    | ok script =>
      have hadded := h.add host name _ hp hf (.code packagePath hscript)
      rw [Run.exec_bind_ok (by rw [Run.exec_query, hscript]),
        Run.exec_bind_ok (exec_changeModules _ host)]
      refine (actAll_keeps h hl hf Spares.nil script.onLoad).attempt.bind (fun result => ?_) _ hadded
      cases result with
      | ok value => exact Run.Keeps.pure _
      | error fault =>
        exact (changeModules_keeps fun host hp => h.erase host name hp hf).bind fun _ =>
          Run.Keeps.throw _

/-- Loading a module under whose name nothing is loaded, and whose package is loaded. -/
def bring (load : Loader) (name : String) : Run Unit := do
  let host ← get
  let searchPath ← Run.ofExcept (searchPathFor host.disk host.modules name (parentName name))
  match host.modules.resident.lookup name with
  | some own =>
    changeModules (·.add name { serial := 0, origin := own.origin, members := own.members })
  | none =>
    match find host.disk (lastComponent name) searchPath with
    | none => throw (notFound name "")
    | some found => enter load name found

/-- A module is loaded unless it is loaded already, its package first. -/
theorem load_succ (depth : Nat) (name : String) :
    load (depth + 1) name = (do
      if (← get).modules.contains name then return ()
      else if parentName name != "" then do
        load depth (parentName name)
        if (← get).modules.contains name then return () else bring (load depth) name
      else bring (load depth) name) := rfl

theorem bring_keeps (h : Upheld P free) {load : Loader} (hl : ∀ name, (load name).Keeps P)
    {name : String} {host : Host} (hp : P host) (hv : host.modules.contains name = false) :
    P ((bring load name).exec host).2 := by
  have hf : free name := h.vacant host name hp hv
  unfold bring
  rw [Run.exec_bind_ok (Run.exec_get host)]
  cases hpath : searchPathFor host.disk host.modules name (parentName name) with
  | error fault =>
    rw [Run.exec_bind_error (Run.exec_ofExcept _ host)]
    exact hp
  | ok searchPath =>
    rw [Run.exec_bind_ok (Run.exec_ofExcept _ host)]
    cases hown : host.modules.resident.lookup name with
    | some own => exact h.add host name _ hp hf (.resident hown)
    | none =>
      cases hfound : find host.disk (lastComponent name) searchPath with
      | none => exact hp
      | some found => exact enter_keeps h hl hf hp hpath found hfound

/-- A step that is left out where a module is loaded already. -/
theorem unlessLoaded_keeps {name : String} {step : Run Unit}
    (hs : ∀ host, P host → host.modules.contains name = false → P (step.exec host).2) :
    (do if (← get).modules.contains name then return () else step : Run Unit).Keeps P := by
  refine Run.Keeps.get_bind fun host hp => ?_
  cases hc : host.modules.contains name with
  | true => exact hp
  | false => exact hs host hp hc

/-- **Loading keeps what tool code upholds**, whatever code it runs.  The induction is on the depth
to which code may load code; the package of a module is loaded one level down as well. -/
theorem load_keeps (h : Upheld P free) : ∀ (depth : Nat) (name : String), (load depth name).Keeps P
  | 0, _ => Run.Keeps.throw _
  | depth + 1, name => by
    have ih := load_keeps h depth
    rw [load_succ]
    refine unlessLoaded_keeps fun host hp hv => ?_
    split
    · refine (ih (parentName name)).bind (fun _ => ?_) host hp
      exact unlessLoaded_keeps fun host hp hv => bring_keeps h ih hp hv
    · exact bring_keeps h ih hp hv

theorem loadModule_keeps (h : Upheld P free) (name : String) : (loadModule name).Keeps P :=
  (Run.Keeps.ofExcept _).bind fun _ => load_keeps h maxDepth name

/-- **Calling a routine keeps what tool code upholds.** -/
theorem callRoutine_keeps (h : Upheld P free) {owner : String} (ho : free owner)
    (actions : List Action) {arguments : List String} (hs : Spares P arguments) :
    (callRoutine owner actions arguments).Keeps P :=
  actAll_keeps h (loadModule_keeps h) ho hs actions

end Dissect.Import
