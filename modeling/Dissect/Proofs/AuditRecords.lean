/-
# What an audit monitor records

A monitor that is handed a report writes its record exactly if the gate is released, no other report
is being handled, and the arguments can be summarised (`handle_released`, `handle_silent`).  While
it writes one, the log handler may make reports of its own.  All of these are dropped, so that none
of them leads to a further reaction (`handleAll_busy`), and behind the record the monitor is idle
again.

So neither the log handler nor the busy mark is seen in a run.  Two switches tell what a step
reports: the gate, and whether the hook is installed (`Watch`).  The invariant that carries the
induction is that a monitor is idle and agrees with these two (`GatedMonitor.Follows`), and the
records of the run are those of the events that its steps report, in their order
(`GatedMonitor.Follows.run`).
-/
import Dissect.Audit

namespace Dissect

variable {gate : Bool} {m : Monitor} {event : AuditEvent}

/-! ## 1. Events -/

namespace AuditEvent

/-- The record of an event, if its arguments can be summarised. -/
def record? (e : AuditEvent) : Option String := e.record.toOption

theorem record?_eq_some {e : AuditEvent} {text : String} (h : e.record = .ok text) :
    e.record? = some text := by
  rw [record?, h]
  rfl

theorem record?_eq_none {e : AuditEvent} {fault : Fault} (h : e.record = .error fault) :
    e.record? = none := by
  rw [record?, h]
  rfl

/-- Whatever its parts are taken from, a tuple can be written if they can, one level further in. -/
theorem tuple_of_parts {most : Nat} {items parts : List Value} (hparts : parts ⊆ items)
    (h : (Value.tuple items).obstacle? (most + 1) = none) :
    (Value.tuple parts).obstacle? (most + 1) = none := by
  rw [Value.obstacle?, Value.itemsObstacle?_eq_none_iff_forall] at h ⊢
  exact fun item hitem => h item (hparts hitem)

/-- A part of a tuple that can be written can be written. -/
theorem part_of_tuple {most : Nat} {items : List Value} {item : Value} (hitem : item ∈ items)
    (h : (Value.tuple items).obstacle? (most + 1) = none) : item.obstacle? (most + 1) = none := by
  rw [Value.obstacle?, Value.itemsObstacle?_eq_none_iff_forall] at h
  exact Value.obstacle?_eq_none_of_le (Nat.le_succ most) (h item hitem)

theorem part_tuple {items : List Value} {position : Nat} (h : position < items.length) :
    (Value.tuple items).part position = .ok items[position] := by
  simp [Value.part, Value.elements?, h]

/-- **What is run can be told of every tuple of arguments**, and it can be written if they can. -/
theorem shown_tuple {e : AuditEvent} {items : List Value} {most : Nat} (h : e.args = .tuple items)
    (hw : e.args.obstacle? (most + 1) = none) :
    ∃ v, e.shown = .ok v ∧ v.obstacle? (most + 1) = none := by
  rw [h] at hw
  have hpart {position : Nat} (hposition : position < items.length) :
      ∃ v, (Value.tuple items).part position = .ok v ∧ v.obstacle? (most + 1) = none :=
    ⟨_, part_tuple hposition, part_of_tuple (List.getElem_mem hposition) hw⟩
  have hfront : ∃ v, (Value.tuple items).front 2 = .ok v ∧ v.obstacle? (most + 1) = none :=
    ⟨.tuple (items.take 2), rfl, tuple_of_parts (List.take_subset 2 items) hw⟩
  have hwhole : ∃ v, (pure (.tuple items) : Except Fault Value) = .ok v ∧
      v.obstacle? (most + 1) = none :=
    ⟨.tuple items, rfl, hw⟩
  have hsome (htruthy : (Value.tuple items).truthy = true) : 0 < items.length := by
    cases items with
    | nil => cases htruthy
    | cons first rest => exact Nat.succ_pos _
  unfold shown
  rw [h]
  split
  · rw [show (Value.tuple items).length = .ok items.length from rfl]
    simp only [bind, Except.bind]
    split
    · rename_i htwo
      exact hpart htwo
    · exact hwhole
  · split
    · rename_i htruthy
      exact hpart (hsome htruthy)
    · exact hwhole
  case h_6 => exact hwhole
  -- of the other three events that announce a process, the first two parts are shown
  all_goals
    split
    · exact hfront
    · exact hwhole

/-- **An event whose arguments are a tuple that can be written has a record.** -/
theorem record_tuple {e : AuditEvent} {items : List Value} (h : e.args = .tuple items)
    (hshort : e.args.isWritable = true) (hlevels : e.args.levels ≤ Value.maxLevels) :
    ∃ text, e.record = .ok text := by
  have hnone := (Value.obstacle?_eq_none_iff Value.maxLevels e.args).mpr ⟨hshort, hlevels⟩
  obtain ⟨v, hshown, hv⟩ := shown_tuple h hnone
  refine ⟨"audit: " ++ e.name ++ " " ++ abbreviate summaryLimit v.quoted, ?_⟩
  have hdemand : v.demandWritten = .ok () := by
    rw [Value.demandWritten, show v.obstacle? Value.maxLevels = none from hv]
  simp [record, summary, hshown, Value.written, hdemand, bind, Except.bind, pure, Except.pure]

end AuditEvent

/-! ## 2. One report -/

namespace Monitor

/-- Nothing is done about a report. -/
def ignored (m : Monitor) : Handled := { written := false, nested := [], monitor := m }

/-- Nothing is written while the gate is active or another report is being handled. -/
theorem handle_silent (h : gate = true ∨ m.busy = true) (event : AuditEvent) (reaction : Reaction) :
    handle gate m event reaction = m.ignored := by
  obtain ⟨events⟩ := reaction
  rw [handle, if_pos (by simpa using h)]
  rfl

/-- **While a record is written, all reports are dropped.** -/
theorem handleAll_busy (h : m.busy = true) (gate : Bool) (events : List (AuditEvent × Reaction)) :
    handleAll gate m events = (events.map fun _ => false, m) := by
  induction events with
  | nil => rfl
  | cons first rest ih =>
    obtain ⟨event, reaction⟩ := first
    rw [handleAll, handle_silent (.inr h), ignored, ih]
    rfl

/-- **Otherwise a report is recorded once**, whatever the log handler reports meanwhile. -/
theorem handle_released (hgate : gate = false) (hbusy : m.busy = false) {text : String}
    (hrecord : event.record = .ok text) (events : List (AuditEvent × Reaction)) :
    handle gate m event (.reports events) =
      { written := true, nested := events.map fun _ => false,
        monitor := { m with records := m.records ++ [text] } } := by
  rw [handle, if_neg (by simp [hgate, hbusy]), hrecord]
  simp only [handleAll_busy]
  rw [← hbusy]

/-- Arguments that cannot be summarised make the report fail before anything is written. -/
theorem handle_untold (hgate : gate = false) (hbusy : m.busy = false) {fault : Fault}
    (hrecord : event.record = .error fault) (reaction : Reaction) :
    handle gate m event reaction = { m.ignored with trouble := some fault } := by
  obtain ⟨events⟩ := reaction
  rw [handle, if_neg (by simp [hgate, hbusy]), hrecord]
  rfl

/-- What becomes of a report is one of these three. -/
theorem handle_cases (gate : Bool) (m : Monitor) (event : AuditEvent)
    (events : List (AuditEvent × Reaction)) :
    ((gate = true ∨ m.busy = true) ∧ handle gate m event (.reports events) = m.ignored) ∨
    (gate = false ∧ m.busy = false ∧ ∃ fault, event.record = .error fault ∧
      handle gate m event (.reports events) = { m.ignored with trouble := some fault }) ∨
    (gate = false ∧ m.busy = false ∧ ∃ text, event.record = .ok text ∧
      handle gate m event (.reports events) =
        { written := true, nested := events.map fun _ => false,
          monitor := { m with records := m.records ++ [text] } }) := by
  by_cases hsilent : gate = true ∨ m.busy = true
  · exact .inl ⟨hsilent, handle_silent hsilent ..⟩
  · obtain ⟨hgate, hbusy⟩ : gate = false ∧ m.busy = false := by simpa using hsilent
    cases hrecord : event.record with
    | error fault =>
      exact .inr (.inl ⟨hgate, hbusy, fault, rfl, handle_untold hgate hbusy hrecord _⟩)
    | ok text => exact .inr (.inr ⟨hgate, hbusy, text, rfl, handle_released hgate hbusy hrecord _⟩)

/-- **The answer to a report** tells whether a record was written, and nothing else is changed. -/
theorem handle_answer (gate : Bool) (m : Monitor) (event : AuditEvent)
    (events : List (AuditEvent × Reaction)) :
    let answer := handle gate m event (.reports events)
    (answer.written = true ↔ gate = false ∧ m.busy = false ∧ ∃ text, event.record = .ok text) ∧
    (answer.trouble.isSome = true ↔
      gate = false ∧ m.busy = false ∧ ∃ fault, event.record = .error fault) ∧
    answer.monitor = { m with
      records := m.records ++ if answer.written then event.record?.toList else [] } ∧
    answer.nested = (if answer.written then events.map fun _ => false else []) := by
  have hsame : m = { m with records := m.records ++ [] } := by rw [List.append_nil]
  intro answer
  obtain ⟨hsilent, hanswer⟩ | ⟨hgate, hbusy, fault, hrecord, hanswer⟩ |
    ⟨hgate, hbusy, text, hrecord, hanswer⟩ := handle_cases gate m event events
  · have hclosed : ¬ (gate = false ∧ m.busy = false) := fun ⟨hgate, hbusy⟩ => by
      simp [hgate, hbusy] at hsilent
    rw [show answer = m.ignored from hanswer]
    exact ⟨iff_of_false nofun fun h => hclosed ⟨h.1, h.2.1⟩,
      iff_of_false nofun fun h => hclosed ⟨h.1, h.2.1⟩, hsame, rfl⟩
  · rw [show answer = { m.ignored with trouble := some fault } from hanswer, hrecord]
    exact ⟨iff_of_false nofun nofun, iff_of_true rfl ⟨hgate, hbusy, fault, rfl⟩, hsame, rfl⟩
  · rw [show answer = _ from hanswer, AuditEvent.record?_eq_some hrecord, hrecord]
    exact ⟨iff_of_true rfl ⟨hgate, hbusy, text, rfl⟩, iff_of_false nofun nofun, rfl, rfl⟩

/-- The hook passes on the events that announce a process. -/
theorem hook_eq (gate : Bool) (m : Monitor) (event : AuditEvent) (reaction : Reaction) :
    hook gate m event reaction =
      if event.name ∈ AuditEvent.spawnNames then handle gate m event reaction else m.ignored := by
  unfold hook AuditEvent.isSpawn
  simp only [List.contains_iff_mem]
  rfl

/-- An event that reaches no hook is ignored. -/
theorem fire_unheard (h : m.hooks = 0) (event : AuditEvent) (reaction : Reaction) :
    fire gate m event reaction = m.ignored := by
  rw [fire, h]
  rfl

/-- A single hook gets the event, and nothing is added to what it does. -/
theorem fire_once (h : m.hooks = 1) (event : AuditEvent) (reaction : Reaction) :
    fire gate m event reaction = hook gate m event reaction := by
  rw [fire, h]
  rfl

end Monitor

/-! ## 3. Runs -/

/-- The two switches that decide what is reported: the gate, and whether the hook is installed. -/
structure Watch where
  gate : Bool := false
  installed : Bool := false

namespace Watch

/-- The switches after a step. -/
def after (w : Watch) : MonitorStep → Watch
  | .setGate active => { w with gate := active }
  | .install => { w with installed := true }
  | _ => w

/-- The event that a step brings before the monitor: one that is handed to it, or the announcement
of a process that is handed to the hook or, once this is installed, reaches it. -/
def brought (w : Watch) : MonitorStep → List AuditEvent
  | .handle event => [event]
  | .hook event => if event.name ∈ AuditEvent.spawnNames then [event] else []
  | .fire event => if w.installed ∧ event.name ∈ AuditEvent.spawnNames then [event] else []
  | _ => []

/-- The event that a step reports: the one it brings, while the gate is released. -/
def reported (w : Watch) (step : MonitorStep) : List AuditEvent :=
  if w.gate then [] else w.brought step

/-- The events that the steps of a run report, in their order. -/
def reports (w : Watch) : List MonitorStep → List AuditEvent
  | [] => []
  | step :: rest => w.reported step ++ (w.after step).reports rest

/-- A step reports at most one event. -/
theorem length_reported (w : Watch) (step : MonitorStep) : (w.reported step).length ≤ 1 := by
  unfold reported brought
  cases step <;> grind

end Watch

namespace GatedMonitor

variable {w : Watch} {s : GatedMonitor}

/-- A run of a monitor behind a gate, with the reaction of the log handler to each step. -/
def run (s : GatedMonitor) (steps : List (MonitorStep × Reaction)) : GatedMonitor :=
  steps.foldl (fun s (step, reaction) => (s.step reaction step).2) s

/-- The monitor is idle, its hook has been added at most once, and the switches are those of the
watch. -/
structure Follows (w : Watch) (s : GatedMonitor) : Prop where
  gate : s.gate = w.gate
  installed : s.monitor.installed = w.installed
  hooks : s.monitor.hooks = w.installed.toNat
  idle : s.monitor.busy = false

namespace Follows

/-- The records do not count. -/
theorem record (h : Follows w s) (records : List String) :
    Follows w { s with monitor := { s.monitor with records } } :=
  ⟨h.gate, h.installed, h.hooks, h.idle⟩

/-- The records are those so far and those of the given events. -/
def recording (s : GatedMonitor) (events : List AuditEvent) : GatedMonitor :=
  { s with monitor := { s.monitor with
      records := s.monitor.records ++ events.filterMap AuditEvent.record? } }

theorem recording_nil (s : GatedMonitor) : recording s [] = s := by
  rw [recording, List.filterMap_nil, List.append_nil]

/-- A report is recorded while the gate is released. -/
theorem handle (h : Follows w s) (event : AuditEvent) (reaction : Reaction) :
    (s.step reaction (.handle event)).2 = recording s (w.reported (.handle event)) := by
  obtain ⟨events⟩ := reaction
  have hmonitor : (s.step (.reports events) (.handle event)).2 =
      { s with monitor := (Monitor.handle s.gate s.monitor event (.reports events)).monitor } := rfl
  rw [hmonitor, Watch.reported, Watch.brought, ← h.gate]
  obtain ⟨hsilent, hanswer⟩ | ⟨hgate, -, fault, hrecord, hanswer⟩ |
    ⟨hgate, -, text, hrecord, hanswer⟩ := Monitor.handle_cases s.gate s.monitor event events
  · have hgate : s.gate = true := hsilent.resolve_right (by simp [h.idle])
    rw [hanswer, if_pos hgate, recording_nil]
    rfl
  · rw [hanswer, if_neg (by simp [hgate]), recording,
      List.filterMap_cons_none (AuditEvent.record?_eq_none hrecord), List.filterMap_nil,
      List.append_nil]
    rfl
  · rw [hanswer, if_neg (by simp [hgate]), recording,
      List.filterMap_cons_some (AuditEvent.record?_eq_some hrecord)]
    rfl

/-- What the hook makes of an event. -/
theorem hook (h : Follows w s) (event : AuditEvent) (reaction : Reaction) :
    (s.step reaction (.hook event)).2 = recording s (w.reported (.hook event)) := by
  have hmonitor : (s.step reaction (.hook event)).2 =
      { s with monitor := (Monitor.hook s.gate s.monitor event reaction).monitor } := rfl
  rw [hmonitor, Monitor.hook_eq, Watch.reported, Watch.brought]
  by_cases hspawn : event.name ∈ AuditEvent.spawnNames
  · rw [if_pos hspawn, if_pos hspawn]
    exact h.handle event reaction
  · rw [if_neg hspawn, if_neg hspawn, ite_self, recording_nil]
    rfl

theorem fire (h : Follows w s) (event : AuditEvent) (reaction : Reaction) :
    (s.step reaction (.fire event)).2 = recording s (w.reported (.fire event)) := by
  have hmonitor : (s.step reaction (.fire event)).2 =
      { s with monitor := (Monitor.fire s.gate s.monitor event reaction).monitor } := rfl
  have hhooks := h.hooks
  rw [hmonitor, Watch.reported, Watch.brought]
  cases hinstalled : w.installed with
  | false =>
    rw [hinstalled] at hhooks
    simp only [Bool.false_eq_true, false_and, if_false, ite_self]
    rw [Monitor.fire_unheard hhooks, recording_nil]
    rfl
  | true =>
    rw [hinstalled] at hhooks
    simp only [true_and]
    rw [Monitor.fire_once hhooks]
    exact h.hook event reaction

/-- **One step** keeps the monitor idle and records the event that it reports. -/
theorem step (h : Follows w s) (step : MonitorStep) (reaction : Reaction) :
    Follows (w.after step) (s.step reaction step).2 ∧
      (s.step reaction step).2.monitor.records =
        s.monitor.records ++ (w.reported step).filterMap AuditEvent.record? := by
  cases step with
  | setGate active =>
    refine ⟨⟨rfl, h.installed, h.hooks, h.idle⟩, ?_⟩
    simp [GatedMonitor.step, Watch.reported, Watch.brought]
  | install =>
    have hnone : w.reported .install = [] := by simp [Watch.reported, Watch.brought]
    rw [hnone, List.filterMap_nil, List.append_nil]
    have hhooks := h.hooks
    unfold GatedMonitor.step Monitor.install
    rw [h.installed]
    cases hinstalled : w.installed with
    | true =>
      rw [hinstalled] at hhooks
      exact ⟨⟨h.gate, h.installed.trans hinstalled, hhooks, h.idle⟩, rfl⟩
    | false =>
      rw [hinstalled] at hhooks
      exact ⟨⟨h.gate, rfl, congrArg (· + 1) hhooks, h.idle⟩, rfl⟩
  | handle event => rw [h.handle]; exact ⟨h.record _, rfl⟩
  | hook event => rw [h.hook]; exact ⟨h.record _, rfl⟩
  | fire event => rw [h.fire]; exact ⟨h.record _, rfl⟩

/-- **A run** keeps the monitor idle, and records the events that its steps report. -/
theorem run (h : Follows w s) (steps : List (MonitorStep × Reaction)) :
    Follows ((steps.map Prod.fst).foldl Watch.after w) (s.run steps) ∧
      (s.run steps).monitor.records = s.monitor.records ++
        (w.reports (steps.map Prod.fst)).filterMap AuditEvent.record? := by
  induction steps generalizing w s with
  | nil => exact ⟨h, (List.append_nil _).symm⟩
  | cons first rest ih =>
    obtain ⟨first, reaction⟩ := first
    obtain ⟨hfirst, hrecords⟩ := h.step first reaction
    obtain ⟨hrest, hmore⟩ := ih hfirst
    refine ⟨hrest, hmore.trans ?_⟩
    rw [hrecords, List.map_cons, Watch.reports, List.filterMap_append, List.append_assoc]

end Follows

/-- Nothing has happened to a new monitor. -/
theorem follows_new : Follows {} {} := ⟨rfl, rfl, rfl, rfl⟩

/-- **What a monitor records.**  After any run of gate changes, reports, events handed to the hook,
installations and events of the runtime, where the log handler may make any reports while a record
is written, the monitor is idle and its hook has been added at most once.  Its records are those of
the reported events, in their order: what was handed to it, or announced a process to the hook,
while the gate was released.  An event of the runtime leaves at most one record.

A report is recorded exactly if the gate is released, no other one is being handled and its
arguments can be summarised.  It then leaves its one record, and every report that the log handler
makes meanwhile is answered in the negative.  Any other report leaves nothing.  It fails if it is
only for the arguments that nothing was written, and they are then no tuple, hold a number that is
too long to be written, or have more levels of parts than can be written. -/
theorem audits (steps : List (MonitorStep × Reaction)) :
    let s := run {} steps
    s.monitor.busy = false ∧ s.monitor.hooks ≤ 1 ∧
    s.monitor.records =
      (Watch.reports {} (steps.map Prod.fst)).filterMap AuditEvent.record? ∧
    (∀ event reaction, (s.step reaction (.fire event)).2.monitor.records.length ≤
      s.monitor.records.length + 1) ∧
    ∀ (gate : Bool) (m : Monitor) (event : AuditEvent) (events : List (AuditEvent × Reaction)),
      let answer := Monitor.handle gate m event (.reports events)
      (answer.written = true ↔
        gate = false ∧ m.busy = false ∧ ∃ text, event.record = .ok text) ∧
      (answer.trouble.isSome = true ↔
        gate = false ∧ m.busy = false ∧ ∃ fault, event.record = .error fault) ∧
      answer.monitor = { m with
        records := m.records ++ if answer.written then event.record?.toList else [] } ∧
      answer.nested = (if answer.written then events.map fun _ => false else []) ∧
      Monitor.hook gate m event (.reports events) =
        (if event.name ∈ AuditEvent.spawnNames then answer else m.ignored) ∧
      (event.args.isWritable = true → event.args.levels ≤ Value.maxLevels →
        (∃ items, event.args = .tuple items) → ∃ text, event.record = .ok text) := by
  intro s
  obtain ⟨hfollows, hrecords⟩ := follows_new.run steps
  refine ⟨hfollows.idle, ?_, hrecords, ?_, ?_⟩
  · rw [hfollows.hooks]
    exact Bool.toNat_le _
  · intro event reaction
    have hone := Watch.length_reported ((steps.map Prod.fst).foldl Watch.after {}) (.fire event)
    rw [hfollows.fire, Follows.recording, List.length_append]
    exact Nat.add_le_add_left (Nat.le_trans (List.length_filterMap_le _ _) hone) _
  · intro gate m event events answer
    obtain ⟨hwritten, htrouble, hmonitor, hnested⟩ := Monitor.handle_answer gate m event events
    exact ⟨hwritten, htrouble, hmonitor, hnested, Monitor.hook_eq ..,
      fun hshort hlevels ⟨items, h⟩ => event.record_tuple h hshort hlevels⟩

/-- A run with a log handler that itself reports a process, from whose record it would do so again:
an event that comes before the hook, one of two installations, a report while the gate is active,
and two events that the hook hears, one of which announces no process. -/
theorem audits_with_handler :
    let command (name : String) : AuditEvent :=
      ⟨"os.system", .tuple [.bytes (Text.encode name)]⟩
    let reaction : Reaction :=
      .reports [(command "within", .reports [(command "deeper", .reports [])])]
    let steps : List MonitorStep := [.fire (command "early"), .install, .install,
      .setGate true, .handle (command "gated"), .setGate false, .hook ⟨"open", .tuple [.str "f"]⟩,
      .fire (command "ls"), .handle ⟨"import", .tuple [.int 3]⟩]
    let s := GatedMonitor.run {} (steps.map (·, reaction))
    s.monitor.busy = false ∧
      s.monitor.records = ["audit: os.system b'ls'", "audit: import (3,)"] ∧
      ∃ text, (command "ls").record = .ok text := by
  intro command reaction steps s
  obtain ⟨hidle, -, hrecords, -, hhandle⟩ := audits (steps.map (·, reaction))
  obtain ⟨-, -, -, -, -, hsummary⟩ := hhandle false {} (command "ls") []
  exact ⟨hidle, hrecords.trans (by decide +kernel), hsummary rfl (by decide) ⟨_, rfl⟩⟩

/-- A report whose arguments are a tuple of one number of more than 4300 digits has no record, though
the gate is released and no other report is being handled: such a number cannot be written. -/
theorem long_number_is_not_recorded :
    ¬ ∀ (gate : Bool) (m : Monitor) (name : String) (items : List Value) (reaction : Reaction),
      (Monitor.handle gate m ⟨name, .tuple items⟩ reaction).written = true ↔
        gate = false ∧ m.busy = false := by
  intro h
  have hrecorded := (h false {} "import" [.int (10 ^ 5000)] (.reports [])).mpr ⟨rfl, rfl⟩
  exact absurd hrecorded (by decide +kernel)

end GatedMonitor

end Dissect
