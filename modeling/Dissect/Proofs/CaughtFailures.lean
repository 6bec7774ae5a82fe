/-
# One record for each failure that is caught

A service with a store makes disassemblies one after the other, and in between anything may happen to
the host that leaves the store alone (`Service.Session`).  Each call in which an ordinary failure was
caught, be it of the tool, of finding it or of making the class file, makes one record, if the failure
can be told; no other call makes any.  So the store lists, the newest first, the last of these calls,
as many as it keeps, and its statistics tell how many there were (`Session.lists_caught`).

A failure that cannot be told makes none.  As a rule it comes out of the disassembly before it comes
to recording; only if it counts as no failed run and its message can be had is there an outcome, and
then the record lacks its report.
-/
import Dissect.Proofs.Escapes
import Dissect.Proofs.SparedStores

namespace Dissect

open ErrorStore (Books CanRecord LeftAlone Lists Shown Usable recordOf stampOf totalOf)
open Files (Location)
open Retention (Greatest)

/-! ## 1. Failures that can be told -/

namespace Fault

variable {fault : Fault}

/-- There are a report on the failure and a message. -/
def isTellable (fault : Fault) : Bool := fault.report.toOption.isSome && fault.tell.toOption.isSome

theorem isTellable_iff : fault.isTellable = true ↔
    (∃ trace, fault.report = .ok trace) ∧ ∃ message, fault.tell = .ok message := by
  unfold isTellable
  cases fault.report <;> cases fault.tell <;> simp [Except.toOption]

/-- All others lack a report or a message. -/
theorem isTellable_eq_false_iff : fault.isTellable = false ↔
    (∃ trouble, fault.report = .error trouble) ∨ ∃ trouble, fault.tell = .error trouble := by
  unfold isTellable
  cases fault.report <;> cases fault.tell <;> simp [Except.toOption]

theorem Untold.isTellable_eq_false {trouble : Fault} (h : fault.Untold trouble) :
    fault.isTellable = false := by
  rcases h with ⟨-, hreport⟩ | ⟨-, htell⟩
  · exact isTellable_eq_false_iff.mpr (.inl ⟨trouble, hreport⟩)
  · exact isTellable_eq_false_iff.mpr (.inr ⟨trouble, htell⟩)

end Fault

theorem OutcomeKind.reread_text (kind : OutcomeKind) :
    (Json.str kind.text).reread = .str kind.text := by
  cases kind <;> rfl

/-- A text in an entry of the manifest is the record's as it reads back, after some times. -/
theorem ManifestEntry.Shows.lookup_text {r : ErrorRecord} {e : ManifestEntry} (h : Shows r e)
    {key text : String}
    (hkey : (ofRecord r r.errorMessage.plainText).lookup key = some (.str text)) :
    ∃ times, e.lookup key = some (.str (Json.pairedText^[times] text)) := by
  induction h with
  | made => exact ⟨0, hkey⟩
  | reread h ih =>
    obtain ⟨times, hlookup⟩ := ih
    refine ⟨times + 1, ?_⟩
    rw [lookup_reread, hlookup, Function.iterate_succ_apply']
    rfl

/-! ## 2. What telling the outcome leaves in the store -/

namespace Service

variable {s : Service} {store : ErrorStore} {unit : ClassUnit} {root : Path} {host : Host}
  {loc : Location} {fault : Fault} {all listed : List ErrorRecord}

theorem noteFailure_noted {message : String} (htell : fault.tell = .ok message) (s : Service)
    (unit : ClassUnit) (outcome : Outcome) (host : Host) :
    ∃ level text, (s.noteFailure unit fault outcome).exec host = (.ok (), host.noted level text) := by
  unfold noteFailure
  rw [Run.exec_bind_ok (by rw [Run.exec_ofExcept, htell])]
  split <;> exact ⟨_, _, rfl⟩

/-- The host after a failure was recorded is that after the step that records it, but for the log. -/
theorem recordFailure_host (hstore : s.store = some store) (unit : ClassUnit) (fault : Fault)
    (report : String → ErrorStore.Report) (host : Host) :
    ∃ log, ((s.recordFailure unit fault report).exec host).2 =
      { ((do store.record fault (report (← Run.ofExcept fault.report)) : Run ErrorRecord).exec
          host).2 with log } := by
  unfold recordFailure
  simp only [hstore]
  rw [Run.exec_bind_ok (Run.exec_attempt _ host)]
  cases ((do store.record fault (report (← Run.ofExcept fault.report)) : Run ErrorRecord).exec
      host).1 with
  | ok r => exact ⟨_, rfl⟩
  | error trouble =>
    simp only
    split
    · cases htell : trouble.tell with
      | error other =>
        rw [Run.exec_bind_error (by rw [Run.exec_ofExcept])]
        exact ⟨_, rfl⟩
      | ok message =>
        rw [Run.exec_bind_ok (by rw [Run.exec_ofExcept])]
        exact ⟨_, rfl⟩
    · exact ⟨_, rfl⟩

/-- The failure that a run ended in, if it is caught. -/
def caught? (ending : Except Fault Unit) : Option Fault :=
  match ending with
  | .ok _ => none
  | .error fault => if fault.kind.isOrdinary then some fault else none

theorem caught?_eq_some {ending : Except Fault Unit} :
    caught? ending = some fault ↔ ending = .error fault ∧ fault.IsOrdinary := by
  unfold caught? Fault.IsOrdinary
  cases ending with
  | ok _ => simp
  | error trouble =>
    simp only [Option.ite_none_right_eq_some, Option.some.injEq, Except.error.injEq]
    constructor
    · rintro ⟨h, rfl⟩
      exact ⟨rfl, h⟩
    · rintro ⟨rfl, h⟩
      exact ⟨h, rfl⟩

/-- Where nothing is caught, telling the outcome leaves the host as it is. -/
theorem conclude_uncaught {finished : Finished} (h : caught? finished.ending = none)
    (unit : ClassUnit) (root : Path) (host : Host) :
    ((s.conclude unit root finished).exec host).2 = host := by
  unfold caught? at h
  unfold conclude
  cases hending : finished.ending with
  | ok _ => rfl
  | error fault =>
    rw [hending] at h
    simp only at h ⊢
    split at h
    · cases h
    · rename_i hno
      rw [if_neg hno]
      rfl

/-- Where a failure is caught, it is classified, and recorded if there is an outcome. -/
theorem conclude_caught {finished : Finished} (h : caught? finished.ending = some fault)
    (unit : ClassUnit) (root : Path) (host : Host) :
    (s.conclude unit root finished).exec host =
      (s.handleFailure unit root finished.captured fault).exec host := by
  obtain ⟨hending, hordinary⟩ := caught?_eq_some.mp h
  have hkind : fault.kind.isOrdinary = true := hordinary
  unfold conclude
  rw [hending]
  simp only [hkind, if_true]

/-- Where there is an outcome and a message, the host afterwards is that after the step that records
the failure, but for the log. -/
theorem handleFailure_exec {captured told : String} {outcome : Outcome}
    (hstore : s.store = some store)
    (hc : s.classifier.classify fault unit.name (some root) captured = .ok outcome)
    (htell : fault.tell = .ok told) (host : Host) :
    ∃ before after, (s.handleFailure unit root captured fault).exec host =
      (.ok outcome, { ((do store.record fault (s.reportOf unit root captured outcome
        (← Run.ofExcept fault.report)) : Run ErrorRecord).exec { host with log := before }).2 with
          log := after }) := by
  obtain ⟨level, message, hnoted⟩ := noteFailure_noted htell s unit outcome host
  obtain ⟨log, hrecorded⟩ := recordFailure_host hstore unit fault
    (s.reportOf unit root captured outcome) (host.noted level message)
  have hresult := recordFailure_result s unit fault (s.reportOf unit root captured outcome)
    (host.noted level message)
  refine ⟨(host.noted level message).log, log, ?_⟩
  unfold handleFailure
  rw [Run.exec_bind_ok (by rw [Run.exec_ofExcept, hc]), Run.exec_bind_ok hnoted,
    Run.exec_bind_ok (Prod.ext hresult hrecorded)]
  rfl

/-- A failure of a disassembly can be recorded as far as names and time stamps go. -/
def CanTell (store : ErrorStore) (host : Host) : Prop :=
  ∀ report : ErrorStore.Report, report.operation = "disassemble" → CanRecord store host report

/-- A caught failure that cannot be told leaves the store alone. -/
theorem handleFailure_untellable (hstore : s.store = some store)
    (hno : fault.isTellable = false) (unit : ClassUnit) (root : Path) (captured : String) :
    store.LeftAlone host ((s.handleFailure unit root captured fault).exec host).2 := by
  cases hc : s.classifier.classify fault unit.name (some root) captured with
  | error trouble =>
    have hfails : (s.handleFailure unit root captured fault).exec host = (.error trouble, host) := by
      unfold handleFailure
      exact Run.exec_bind_error (by rw [Run.exec_ofExcept, hc])
    rw [hfails]
    exact .of_disk rfl (Nat.le_refl _)
  | ok outcome =>
    cases htell : fault.tell with
    | error trouble =>
      have hfails : (s.handleFailure unit root captured fault).exec host =
          (.error trouble, host) := by
        unfold handleFailure noteFailure
        rw [Run.exec_bind_ok (by rw [Run.exec_ofExcept, hc])]
        exact Run.exec_bind_error (Run.exec_bind_error (by rw [Run.exec_ofExcept, htell]))
      rw [hfails]
      exact .of_disk rfl (Nat.le_refl _)
    | ok message =>
      obtain ⟨before, after, hexec⟩ := handleFailure_exec hstore hc htell host
      rw [hexec]
      cases hreport : fault.report with
      | error trouble =>
        rw [Run.exec_bind_error (by rw [Run.exec_ofExcept])]
        exact .of_disk rfl (Nat.le_refl _)
      | ok trace =>
        rw [Fault.isTellable_iff.mpr ⟨⟨trace, hreport⟩, message, htell⟩] at hno
        cases hno

/-- **A caught failure that can be told has an outcome and makes one record**, of its class, of the
kind of the outcome and of the class that was to be disassembled. -/
theorem handleFailure_tellable (hstore : s.store = some store)
    (h : Books store host.disk loc host.recordsTaken all all listed) (can : CanTell store host)
    (htell : fault.isTellable = true) (unit : ClassUnit) (root : Path) (captured : String) :
    ∃ outcome after r listed', (s.handleFailure unit root captured fault).exec host =
        (.ok outcome, after) ∧
      Books store after.disk loc after.recordsTaken (all ++ [r]) (all ++ [r]) listed' ∧
      r.timestamp = host.clock.read.1 ∧ r.resultKind = .str outcome.kind.text ∧
      r.errorType = .str fault.name ∧ r.className = .str unit.name := by
  obtain ⟨⟨trace, hreport⟩, message, ht⟩ := Fault.isTellable_iff.mp htell
  cases hc : s.classifier.classify fault unit.name (some root) captured with
  | error trouble =>
    obtain ⟨-, huntold⟩ := Classifier.classify_error_iff.mp hc
    rw [huntold.isTellable_eq_false] at htell
    cases htell
  | ok outcome =>
    obtain ⟨before, last, hexec⟩ := handleFailure_exec hstore hc ht host
    obtain ⟨hslash, hfits, hnow, hlater, hleft⟩ :=
      can (s.reportOf unit root captured outcome trace) rfl
    have hbooks : Books store { host with log := before }.disk loc
        { host with log := before }.recordsTaken all all listed := h
    have hnameable : Files.Disk.Nameable "disassemble" := Files.Disk.nameable_of_ascii (by decide)
    obtain ⟨listed', disk, after, hrecord, ⟨log, rfl⟩, hafter⟩ := hbooks.record
      ⟨hslash, hnameable⟩ hnow hlater hleft hfits ht
    refine ⟨outcome, _, recordOf { host with log := before } fault
      (s.reportOf unit root captured outcome trace) message, listed', hexec, ?_, rfl, rfl, rfl, rfl⟩
    rw [hreport, Run.exec_bind_ok (Run.exec_ofExcept (.ok trace) _), hrecord]
    exact hafter

theorem CanTell.congr {other : Host} (can : CanTell store host) (hclock : other.clock = host.clock)
    (hnumbers : other.recordsTaken = host.recordsTaken) : CanTell store other := by
  intro report ho
  obtain ⟨hslash, hfits, hnow, hlater, hleft⟩ := can report ho
  exact ⟨hslash, by rw [hclock, hnumbers]; exact hfits, by rw [hclock]; exact hnow,
    by rw [hclock]; exact hlater, by rw [hnumbers]; exact hleft⟩

/-! ## 3. Calls -/

/-- A disassembly: of what class, at what time, what making the class file and running the tool ended
in, and what came out. -/
structure Call where
  unit : ClassUnit
  stamp : Json
  ending : Except Fault Unit
  result : Except Fault Outcome

/-- The disassembly of a class on a host. -/
def callOn (s : Service) (unit : ClassUnit) (root : Path) (host : Host) : Call where
  unit := unit
  stamp := host.clock.read.1
  ending := (s.comesTo unit root host).ending
  result := ((s.disassemble unit).exec host).1

namespace Call

/-- The failure that was caught in the call. -/
def caught? (c : Call) : Option Fault := Service.caught? c.ending

/-- A failure was caught in the call that can be told. -/
def isRecorded (c : Call) : Bool := c.caught?.any Fault.isTellable

/-- The record is one of the call. -/
def Makes (c : Call) (r : ErrorRecord) : Prop :=
  ∃ fault outcome, c.caught? = some fault ∧ c.result = .ok outcome ∧ r.timestamp = c.stamp ∧
    r.resultKind = .str outcome.kind.text ∧ r.errorType = .str fault.name ∧
    r.className = .str c.unit.name

/-- The entry tells the time of the call, the kind of its outcome, the class of the failure that was
caught in it, and the class that was to be disassembled.  The name of the latter is free: it is as it
reads back, which is itself unless it holds halves of a pair side by side. -/
def ShownBy (c : Call) (e : ManifestEntry) : Prop :=
  ∃ fault outcome, c.caught? = some fault ∧ c.result = .ok outcome ∧ e.stamp = c.stamp ∧
    e.lookup "result_kind" = some (.str outcome.kind.text) ∧
    e.lookup "error_type" = some (.str fault.name) ∧
    ∃ times, e.lookup "class_name" = some (.str (Json.pairedText^[times] c.unit.name))

variable {c : Call} {r : ErrorRecord} {e : ManifestEntry}

/-- An entry that shows the record of a call shows the call. -/
theorem Makes.shownBy (h : Makes c r) (hshown : Shown r e) : ShownBy c e := by
  obtain ⟨fault, outcome, hcaught, hresult, hstamp, hkind, htype, hname⟩ := h
  refine ⟨fault, outcome, hcaught, hresult, hshown.stamp.trans hstamp, ?_, ?_, ?_⟩
  · refine hshown.shows.lookup outcome.kind.reread_text ?_
    rw [← hkind]
    rfl
  · refine hshown.shows.lookup fault.reread_name ?_
    rw [← htype]
    rfl
  · refine hshown.shows.lookup_text ?_
    rw [← hname]
    rfl

end Call

theorem callOn_caught? (s : Service) (unit : ClassUnit) (root : Path) (host : Host) :
    (s.callOn unit root host).caught? = caught? (s.comesTo unit root host).ending := by
  simp only [callOn, Call.caught?]

theorem callOn_isRecorded (s : Service) (unit : ClassUnit) (root : Path) (host : Host) :
    (s.callOn unit root host).isRecorded =
      (caught? (s.comesTo unit root host).ending).any Fault.isTellable := by
  unfold Call.isRecorded
  rw [callOn_caught?]

theorem callOn_result (hroot : s.configuration.toolPath = some root) (unit : ClassUnit)
    (host : Host) :
    (s.callOn unit root host).result = s.verdict unit root (s.comesTo unit root host) := by
  unfold callOn
  exact disassemble_verdict hroot unit host

/-- The host after a disassembly is that after telling what the run came to. -/
theorem disassemble_after (hroot : s.configuration.toolPath = some root) (unit : ClassUnit)
    (host : Host) :
    ((s.disassemble unit).exec host).2 = setLock false
      ((s.conclude unit root (s.comesTo unit root host)).exec (s.cleaned unit root host)).2 := by
  have hrun : (s.run unit root).exec (setLock true host) =
      (.ok (s.comesTo unit root host), s.cleaned unit root host) := by
    unfold cleaned comesTo
    rw [run_exec]
    cases s.makeFile unit host with
    | mk result made => cases result <;> rfl
  rw [disassemble_exec hroot, Run.exec_bind_ok hrun]

theorem books_unlocked (h : Books store host.disk loc host.recordsTaken all all listed) :
    Books store (setLock false host).disk loc (setLock false host).recordsTaken all all listed := h

/-- **A disassembly keeps the books of the store in order**, and makes one record if a failure was
caught that can be told, and otherwise none. -/
theorem disassemble_books (hroot : s.configuration.toolPath = some root)
    (hinvoker : s.invoker = Invocation.invoke) (hstore : s.store = some store)
    (h : Books store host.disk loc host.recordsTaken all all listed) (unit : ClassUnit)
    (hfits : s.Fits host) (can : CanTell store host) :
    ∃ made listed', List.Forall₂ Call.Makes ([s.callOn unit root host].filter Call.isRecorded) made ∧
      Books store ((s.disassemble unit).exec host).2.disk loc
        ((s.disassemble unit).exec host).2.recordsTaken (all ++ made) (all ++ made) listed' := by
  obtain ⟨halone, hclock, hnumbers⟩ :=
    cleaned_leavesAlone unit root hstore hinvoker hfits h.usable.toEnclosed
  have hcleaned := h.leftAlone halone
  have hcan : CanTell store (s.cleaned unit root host) := can.congr hclock hnumbers
  have hrecorded := callOn_isRecorded s unit root host
  rw [disassemble_after hroot]
  cases hcaught : caught? (s.comesTo unit root host).ending with
  | none =>
    rw [hcaught, Option.any_none] at hrecorded
    rw [conclude_uncaught hcaught]
    exact ⟨[], listed, by simp [hrecorded], by rw [List.append_nil]; exact books_unlocked hcleaned⟩
  | some fault =>
    rw [hcaught, Option.any_some] at hrecorded
    rw [conclude_caught hcaught]
    cases htell : fault.isTellable with
    | false =>
      have hleft := hcleaned.leftAlone
        (handleFailure_untellable hstore htell unit root (s.comesTo unit root host).captured)
      exact ⟨[], listed, by simp [hrecorded, htell], by rw [List.append_nil]; exact books_unlocked hleft⟩
    | true =>
      obtain ⟨outcome, after, r, listed', hexec, hbooks, hstamp, hkind, htype, hname⟩ :=
        handleFailure_tellable hstore hcleaned hcan htell unit root
          (s.comesTo unit root host).captured
      have hresult : (s.callOn unit root host).result = .ok outcome := by
        rw [callOn_result hroot, ← conclude_result _ (s.cleaned unit root host),
          conclude_caught hcaught, hexec]
      have hcall : (s.callOn unit root host).caught? = some fault := by
        rw [callOn_caught?]
        exact hcaught
      have hmakes : Call.Makes (s.callOn unit root host) r :=
        ⟨fault, outcome, hcall, hresult, by rw [hstamp, hclock]; rfl, hkind, htype, hname⟩
      rw [hexec]
      exact ⟨[r], listed', by simp [hrecorded, htell, hmakes], books_unlocked hbooks⟩

/-- **Which calls make no record**: those that succeed, those that a request to stop passes through, and
those in which a failure is caught that cannot be told. -/
theorem isRecorded_eq_false_iff (hroot : s.configuration.toolPath = some root) (unit : ClassUnit)
    (host : Host) :
    (s.callOn unit root host).isRecorded = false ↔
      (∃ outcome, (s.callOn unit root host).result = .ok outcome ∧ outcome.kind = .success) ∨
      (∃ fault, (s.callOn unit root host).result = .error fault ∧ ¬ fault.IsOrdinary) ∨
      ∃ fault, (s.callOn unit root host).caught? = some fault ∧
        ((∃ trouble, fault.report = .error trouble) ∨ ∃ trouble, fault.tell = .error trouble) := by
  rw [callOn_isRecorded, callOn_result hroot, callOn_caught?]
  unfold verdict
  cases he : (s.comesTo unit root host).ending with
  | ok _ => exact iff_of_true rfl (.inl ⟨_, rfl, rfl⟩)
  | error fault =>
    by_cases hordinary : fault.IsOrdinary
    · have hkind : fault.kind.isOrdinary = true := hordinary
      rw [caught?_eq_some.mpr ⟨rfl, hordinary⟩, Option.any_some, Fault.isTellable_eq_false_iff]
      simp only [hkind, if_true]
      constructor
      · exact fun hlacks => .inr (.inr ⟨fault, rfl, hlacks⟩)
      · rintro (⟨outcome, hok, hsuccess⟩ | ⟨trouble, herror, hstop⟩ | ⟨other, hother, hlacks⟩)
        · exact absurd ((Classifier.classify_kind (handled_ok_iff.mp hok).1).symm.trans hsuccess)
            (Classifier.kindOf_ne_success _)
        · exact absurd (handled_error_iff.mp herror).isTellingTrouble.isOwn.ordinary hstop
        · cases hother
          exact hlacks
    · have hkind : ¬ fault.kind.isOrdinary = true := hordinary
      have hnone : caught? (.error fault) = none := by simp [caught?, hkind]
      rw [hnone]
      simp only [if_neg hkind]
      exact iff_of_true rfl (.inr (.inl ⟨fault, rfl, hordinary⟩))

/-! ## 4. Sessions -/

/-- The hosts that a service can be on after its store was opened on a first one, with the calls since
then.  Between the calls anything may happen that leaves the store alone.  Each call finds the host
fit, and a clock that has advanced since the calls before. -/
inductive Session (s : Service) (store : ErrorStore) (root : Path) (start : Host) :
    List Call → Host → Prop where
  | opened : Session s store root start []
      ((ErrorStore.openAt (some store.directory) store.maxErrors).exec start).2
  | meanwhile {calls : List Call} {host other : Host} (h : Session s store root start calls host)
      (alone : store.LeftAlone host other) : Session s store root start calls other
  | called {calls : List Call} {host : Host} (h : Session s store root start calls host)
      (unit : ClassUnit) (fits : s.Fits host) (can : CanTell store host)
      (advanced : ∀ c ∈ calls, c.stamp.toRat < host.clock.read.1.toRat) :
      Session s store root start (calls ++ [s.callOn unit root host])
        ((s.disassemble unit).exec host).2

namespace Session

variable {start : Host} {calls : List Call}

theorem rising (h : Session s store root start calls host) :
    calls.Pairwise fun a b => a.stamp.toRat < b.stamp.toRat := by
  induction h with
  | opened => exact .nil
  | meanwhile _ _ ih => exact ih
  | called _ unit fits can advanced ih =>
    refine List.pairwise_append.mpr ⟨ih, List.pairwise_singleton _ _, fun a ha b hb => ?_⟩
    rw [List.mem_singleton.mp hb]
    exact advanced a ha

theorem call_of_mem (h : Session s store root start calls host) {c : Call} (hc : c ∈ calls) :
    ∃ unit host, c = s.callOn unit root host := by
  induction h with
  | opened => cases hc
  | meanwhile _ _ ih => exact ih hc
  | called _ unit fits can advanced ih =>
    rcases List.mem_append.mp hc with hc | hc
    · exact ih hc
    · exact ⟨unit, _, List.mem_singleton.mp hc⟩

/-- **The books are in order at any time**, and the records are those of the calls in which a failure
was caught that can be told. -/
theorem books (h : Session s store root start calls host)
    (hroot : s.configuration.toolPath = some root) (hinvoker : s.invoker = Invocation.invoke)
    (hstore : s.store = some store) (hu : Usable store start.disk loc)
    (hempty : start.disk.tree.children loc = []) :
    ∃ all listed, List.Forall₂ Call.Makes (calls.filter Call.isRecorded) all ∧
      Books store host.disk loc host.recordsTaken all all listed := by
  induction h with
  | opened =>
    obtain ⟨disk, after, hexec, ⟨log, rfl⟩, hbooks⟩ := hu.open_empty hempty
    rw [hexec]
    exact ⟨[], [], .nil, hbooks⟩
  | meanwhile _ alone ih =>
    obtain ⟨all, listed, hmakes, hbooks⟩ := ih
    exact ⟨all, listed, hmakes, hbooks.leftAlone alone⟩
  | called _ unit fits can advanced ih =>
    obtain ⟨all, listed, hmakes, hbooks⟩ := ih
    obtain ⟨made, listed', hmade, hbooks'⟩ :=
      disassemble_books hroot hinvoker hstore hbooks unit fits can
    refine ⟨all ++ made, listed', ?_, hbooks'⟩
    rw [List.filter_append]
    exact List.rel_append hmakes hmade

/-- **A store lists the calls of a session in which a failure was caught that can be told.**  At any time
after it was opened in an empty directory, its manifest has one entry for each of the last of them, the
newest first, as many as it keeps; the newest entries are the first of these; and the statistics tell
how many such calls there were.  All other calls succeeded, or a request to stop passed through them,
or there is no report on the failure that was caught in them, or no message of it. -/
theorem lists_caught (h : Session s store root start calls host)
    (hroot : s.configuration.toolPath = some root) (hinvoker : s.invoker = Invocation.invoke)
    (hstore : s.store = some store) (hu : Usable store start.disk loc)
    (hempty : start.disk.tree.children loc = []) :
    (∃ entries stats,
      (store.manifest.exec host).1 = .ok entries ∧
      List.Forall₂ Call.ShownBy
        ((calls.filter Call.isRecorded).reverse.take store.maxErrors.toNat) entries ∧
      (∀ count, ((store.recent count).exec host).1 = .ok (ErrorStore.takeSigned count entries)) ∧
      (store.stats.exec host).1 = .ok stats ∧
      totalOf stats = (calls.filter Call.isRecorded).length) ∧
    ∀ c ∈ calls, c.isRecorded = false ↔
      (∃ outcome, c.result = .ok outcome ∧ outcome.kind = .success) ∨
      (∃ fault, c.result = .error fault ∧ ¬ fault.IsOrdinary) ∨
      ∃ fault, c.caught? = some fault ∧
        ((∃ trouble, fault.report = .error trouble) ∨ ∃ trouble, fault.tell = .error trouble) := by
  refine ⟨?_, fun c hc => ?_⟩
  · obtain ⟨all, listed, hmakes, hbooks⟩ := h.books hroot hinvoker hstore hu hempty
    -- the records are in the order of the calls, and the clock has advanced from each to the next
    have hrising : all.Pairwise fun a b => stampOf a < stampOf b := by
      refine pairwise_of_forall₂ hmakes (fun c c' r r' hmade hmade' hlt => ?_)
        (h.rising.sublist List.filter_sublist)
      obtain ⟨_, _, _, _, hstamp, _⟩ := hmade
      obtain ⟨_, _, _, _, hstamp', _⟩ := hmade'
      unfold stampOf
      rw [hstamp, hstamp']
      exact hlt
    have hlisted := hbooks.greatest.eq_last hrising
    obtain ⟨_, hmanifest, -⟩ := store.manifest_exec hbooks.manifest rfl
    obtain ⟨_, hstats, -⟩ := store.stats_exec hbooks.stats rfl
    refine ⟨store.entriesIn host.disk, store.statsIn host.disk, by rw [hmanifest], ?_,
      fun count => ?_, by rw [hstats], ?_⟩
    · have hshown := List.forall₂_take store.maxErrors.toNat (List.forall₂_reverse_iff.mpr hmakes)
      rw [← hlisted] at hshown
      exact (forall₂_through hshown hbooks.lists).imp fun _ _ ⟨_, hm, hs⟩ => hm.shownBy hs
    · unfold ErrorStore.recent
      rw [Run.exec_bind_ok hmanifest]
      rfl
    · rw [hbooks.tally.total, hmakes.length_eq]
  · obtain ⟨unit, host, rfl⟩ := h.call_of_mem hc
    exact isRecorded_eq_false_iff hroot unit host

/-- The tool is missing, and a class is disassembled once. -/
theorem missing_tool_recorded :
    let store : ErrorStore := { directory := ⟨.root, ["errors"]⟩ }
    let s : Service := {
      backend := Backend.javap
      configuration := {
        toolPath := some ⟨.root, ["jdk"]⟩, tempDirectory := some ⟨.root, ["temp"]⟩ }
      store := some store }
    let start : Host := {
      disk := { tree := ⟨[(["temp"], .directory 0o755), (["errors"], .directory 0o755)]⟩ } }
    ∃ c e host, Session s store ⟨.root, ["jdk"]⟩ start [c] host ∧ c.ShownBy e ∧
      (store.manifest.exec host).1 = .ok [e] := by
  intro store s start
  have herrors : start.disk.locate true (Path.text ⟨.root, ["errors"]⟩) = .ok ["errors"] := rfl
  have husable : Usable store start.disk ["errors"] :=
    .of_bare (by decide) herrors ⟨0o755, rfl⟩ (by decide) (Files.Disk.nameable_of_ascii (by decide))
      ⟨by decide, by decide⟩ ⟨by decide, by decide⟩
  have hrecorded : (s.callOn ⟨[], "Foo"⟩ ⟨.root, ["jdk"]⟩
      ((ErrorStore.openAt (some store.directory) store.maxErrors).exec start).2).isRecorded = true := by
    decide +kernel
  have htemp : (((ErrorStore.openAt (some store.directory) store.maxErrors).exec start).2.disk.locate
      true "/temp").toOption = some ["temp"] := by decide +kernel
  have hproper : start.disk.WellFormed :=
    ⟨Files.Tree.WellFormed.of_nodes (by decide), fun name hm => by cases hm⟩
  have hdisk := husable.wellFormed_open hproper
  obtain ⟨disk, opened, hopen, ⟨log, rfl⟩, hbooks⟩ := husable.open_empty rfl
  have hfirst : Session s store ⟨.root, ["jdk"]⟩ start [] _ := .opened
  rw [hopen] at hrecorded htemp hdisk hfirst
  have hfits : s.Fits { start with disk, log } := by
    refine ⟨⟨hdisk, ?_, fun fault h => (by cases h)⟩, fun other h => ?_⟩
    · rintro path ⟨⟩
      decide
    · cases h
      refine .inl ⟨["errors"], hbooks.usable.toEnclosed, fun hsame => ?_⟩
      have heq := hsame.locate
      have hdirectory : Disposable.directoryFor { start with disk, log }
          s.configuration.tempDirectory = ⟨.root, ["temp"]⟩ := rfl
      have hlocate : disk.locate true "/temp" = .ok ["temp"] := Run.ok_of_toOption htemp
      have htext : (⟨.root, ["temp"]⟩ : Path).text = "/temp" := by decide
      rw [hdirectory, htext, hlocate] at heq
      exact absurd heq (by simp)
  have hmoment : Moment.ofStamp (.int 1700000000) = .ok ⟨2023, 11, 14, 22, 13, 20⟩ := rfl
  have hname : ErrorStore.Fits store
      (ErrorStore.recordName ⟨2023, 11, 14, 22, 13, 20⟩ "disassemble" (0 + 1)) := by
    unfold ErrorStore.Fits
    decide +kernel
  have hleft : 0 + 1 < 16 ^ 16 := by decide
  have hcan : CanTell store { start with disk, log } := by
    intro report ho
    refine ⟨by rw [ho]; decide, fun moment hm => ?_, ?_, ?_, hleft⟩
    · cases hmoment.symm.trans hm
      rw [ho]
      exact hname
    · exact ErrorStore.accepted_int hmoment
    · have hlater : Moment.ofStamp (.int 1700000001) = .ok ⟨2023, 11, 14, 22, 13, 21⟩ := rfl
      exact ErrorStore.accepted_int hlater
  have hsession := hfirst.called ⟨[], "Foo"⟩ hfits hcan fun c hc => by cases hc
  obtain ⟨⟨entries, stats, hmanifest, hshown, -⟩, -⟩ :=
    hsession.lists_caught rfl rfl rfl husable rfl
  rw [List.nil_append, List.filter_cons_of_pos hrecorded] at hshown
  have hone : List.Forall₂ Call.ShownBy [s.callOn ⟨[], "Foo"⟩ ⟨.root, ["jdk"]⟩
      { start with disk, log }] entries := hshown
  cases hone with
  | cons hcall hrest =>
    cases hrest
    exact ⟨_, _, _, hsession, hcall, hmanifest⟩

end Session

end Service

end Dissect
