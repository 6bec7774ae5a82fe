/-
# The audit monitor

The monitor writes a record for every report that a process is about to be started, unless the
safety gate is active.  Writing a record may itself make reports, since a log handler is free to
start processes; those are dropped, so that one event leaves at most one record.
-/
import Dissect.Value.Parts
import Dissect.Value.Written

namespace Dissect

/-! ## 1. Events -/

/-- A report from the runtime: the event's name and its arguments, usually a tuple. -/
structure AuditEvent where
  name : String
  args : Value

namespace AuditEvent

/-- The events that announce a new process. -/
def spawnNames : List String :=
  ["subprocess.Popen", "os.system", "os.exec", "os.posix_spawn", "os.spawn", "os.startfile"]

/-- The event announces a new process. -/
def isSpawn (e : AuditEvent) : Bool := spawnNames.contains e.name

/-- The part of the arguments that says what is run. -/
def shown (e : AuditEvent) : Except Fault Value := do
  match e.name with
  | "subprocess.Popen" => if 2 ≤ (← e.args.length) then e.args.part 1 else return e.args
  | "os.system" => if e.args.truthy then e.args.part 0 else return e.args
  | "os.exec" | "os.posix_spawn" | "os.spawn" =>
    if e.args.truthy then e.args.front 2 else return e.args
  | _ => return e.args

/-- The longest summary that is written in full. -/
def summaryLimit : Nat := 200

/-- A text cut to a limit, with dots where it was cut. -/
def abbreviate (limit : Nat) (s : String) : String :=
  if limit < s.length then Text.take s limit ++ "..." else s

/-- What is run, on one line. -/
def summary (e : AuditEvent) : Except Fault String := do
  let shown ← e.shown
  return abbreviate summaryLimit (← shown.written)

/-- The record of an event. -/
def record (e : AuditEvent) : Except Fault String :=
  return "audit: " ++ e.name ++ " " ++ (← e.summary)

end AuditEvent

/-! ## 2. The monitor -/

/-- How the log handler reacts to a record: the reports it makes meanwhile, each with the reaction
to the record that this report might leave. -/
inductive Reaction where
  | reports (events : List (AuditEvent × Reaction))

/-- The state of a monitor: whether its hook is installed and how many hooks it has added, whether a
report is being handled, and the records it has written. -/
structure Monitor where
  installed : Bool := false
  hooks : Nat := 0
  busy : Bool := false
  records : List String := []
deriving DecidableEq, Repr

namespace Monitor

/-- What a report led to: whether a record was written, the answers to the reports made meanwhile,
the monitor afterwards, and the failure of arguments of which no record can be made. -/
structure Handled where
  written : Bool
  nested : List Bool
  monitor : Monitor
  trouble : Option Fault := none

mutual

/-- Handles a report. -/
def handle (gate : Bool) (m : Monitor) (event : AuditEvent) : Reaction → Handled
  | .reports events =>
    if gate || m.busy then { written := false, nested := [], monitor := m }
    else
      match event.record with
      | .error fault => { written := false, nested := [], monitor := m, trouble := some fault }
      | .ok record =>
        let inner := handleAll gate { m with busy := true, records := m.records ++ [record] } events
        { written := true, nested := inner.1, monitor := { inner.2 with busy := false } }

/-- Handles reports one after the other: the answers and the monitor afterwards. -/
def handleAll (gate : Bool) (m : Monitor) : List (AuditEvent × Reaction) → List Bool × Monitor
  | [] => ([], m)
  | (event, reaction) :: rest =>
    let first := handle gate m event reaction
    let others := handleAll gate first.monitor rest
    (first.written :: first.nested ++ others.1, others.2)

end

/-- What the installed hook does with an event: only those that announce a process are reported. -/
def hook (gate : Bool) (m : Monitor) (event : AuditEvent) (reaction : Reaction) : Handled :=
  if event.isSpawn then handle gate m event reaction
  else { written := false, nested := [], monitor := m }

/-- Installs the hook, once and for all: whether it was added, and the monitor afterwards. -/
def install (m : Monitor) : Bool × Monitor :=
  if m.installed then (false, m)
  else (true, { m with installed := true, hooks := m.hooks + 1 })

/-- One more hook gets an event, unless an earlier one failed at it. -/
def fireOnce (gate : Bool) (event : AuditEvent) (reaction : Reaction) (before : Handled) :
    Handled :=
  if before.trouble.isSome then before
  else
    let handled := hook gate before.monitor event reaction
    { handled with nested := before.nested ++ handled.nested }

/-- An event of the runtime reaches every hook. -/
def fire (gate : Bool) (m : Monitor) (event : AuditEvent) (reaction : Reaction) : Handled :=
  (List.range m.hooks).foldl (fun handled _ => fireOnce gate event reaction handled)
    { written := false, nested := [], monitor := m }

end Monitor

/-! ## 3. Monitors behind a gate -/

/-- What can happen to a monitor. -/
inductive MonitorStep where
  /-- The gate is activated or released. -/
  | setGate (active : Bool)
  /-- A report is handed to the monitor. -/
  | handle (event : AuditEvent)
  /-- An event is handed to the hook. -/
  | hook (event : AuditEvent)
  /-- The hook is to be installed. -/
  | install
  /-- The runtime reports an event to whatever hooks there are. -/
  | fire (event : AuditEvent)

/-- What a step tells: whether it wrote a record or added a hook, where that is the question, the
answers to the reports made meanwhile, and the failure in which it ended, if it did. -/
structure MonitorAnswer where
  done : Option Bool := none
  nested : List Bool := []
  trouble : Option Fault := none

/-- A gate and the monitor behind it. -/
structure GatedMonitor where
  gate : Bool := false
  monitor : Monitor := {}
deriving DecidableEq, Repr

/-- Takes a step, with the same reaction to every record that it leaves. -/
def GatedMonitor.step (s : GatedMonitor) (reaction : Reaction) :
    MonitorStep → MonitorAnswer × GatedMonitor
  | .setGate active => ({}, { s with gate := active })
  | .handle event =>
    let handled := Monitor.handle s.gate s.monitor event reaction
    (⟨some handled.written, handled.nested, handled.trouble⟩,
      { s with monitor := handled.monitor })
  | .hook event =>
    let handled := Monitor.hook s.gate s.monitor event reaction
    (⟨none, handled.nested, handled.trouble⟩,
      { s with monitor := handled.monitor })
  | .install =>
    let (added, monitor) := s.monitor.install
    ({ done := some added }, { s with monitor })
  | .fire event =>
    let handled := Monitor.fire s.gate s.monitor event reaction
    (⟨none, handled.nested, handled.trouble⟩,
      { s with monitor := handled.monitor })

end Dissect
