/-
# Recording in a damaged store

Whatever the files of a store hold, recording a failure is meant to leave a record.  Most of what may
be wrong is provided for; the exceptions are these, and they are all (`record_fails_iff`).

* **A file is nested too deeply** (`TooDeep`).
* **A count is no number.**  The statistics are checked for the shapes of their tables, but not for
  what the tables hold: the count to be increased may be anything, and adding one to it fails.
* **A count is the greatest number that can be written** (`greatest`), and so the next one cannot.
* **An id makes a pattern that is refused** (`Refused`), and the entry that has it is to be pruned.

Besides, the failure that is to be recorded may not have a text.  Where recording does return, the
manifest has no more entries than it may have, whatever it had before.
-/
import Dissect.Proofs.FailureCounts

namespace Dissect

open Files (Disk Location)

namespace ErrorStore

variable {s : ErrorStore} {d d' : Disk} {loc : Location} {host : Host} {fault : Fault}
  {report : Report} {message : String}

/-! ## 1. The record and its entry -/

/-- The manifest with the entry of a record that is made of a failure on a host. -/
def listing (s : ErrorStore) (host : Host) (fault : Fault) (report : Report) :
    List ManifestEntry :=
  ManifestEntry.newestFirst (s.entriesIn host.disk ++
    [ManifestEntry.ofRecord (recordOf host fault report fault.message) fault.message])

theorem listable_listing (s : ErrorStore) (fault : Fault) (report : Report)
    (ha : Accepted host.clock.read.1) :
    ∀ e ∈ s.listing host fault report, Listable e := by
  refine listable_newestFirst fun e he => ?_
  rcases List.mem_append.mp he with he | he
  · exact listable_of_mem he
  · rw [List.mem_singleton.mp he]
    exact listable_ofRecord ha _ _

/-- What is left to be done for a record once it is in the manifest. -/
def settle (s : ErrorStore) (fault : Fault) (report : Report) (r : ErrorRecord) : Run ErrorRecord := do
  s.updateStats r.timestamp report.operation fault.name report.resultKind
  s.prune
  Run.note .error (recordedMessage r.errorId.plainText report fault)
  return r

/-- What is left to be done for a record once it is saved. -/
def enter (s : ErrorStore) (fault : Fault) (report : Report) (r : ErrorRecord) : Run ErrorRecord := do
  let entries ← s.manifest
  s.saveManifest
    (ManifestEntry.newestFirst (entries ++ [ManifestEntry.ofRecord r fault.message]))
  s.settle fault report r

theorem record_eq (s : ErrorStore) (fault : Fault) (report : Report) :
    s.record fault report = (do
      let r ← makeRecord fault report
      let path ← Run.ofExcept (s.recordPath r.timestamp report.operation r.errorId.plainText)
      save path (.obj r.members)
      s.enter fault report r) := rfl

/-- A record can be saved. -/
theorem Usable.record_saved (h : Usable s host.disk loc) (ha : Accepted host.clock.read.1)
    (ho : NamesFile report.operation) (ht : fault.tell = .ok message) :
    ∃ moment disk saved, (s.record fault report).exec host =
        (s.enter fault report (recordOf host fault report message)).exec saved ∧
      Saved s loc (recordName moment report.operation (host.recordsTaken + 1))
        (.obj (recordOf host fault report message).members) host.disk disk ∧
      Moment.ofStamp host.clock.read.1 = .ok moment ∧ Became (drawn host) disk saved := by
  obtain ⟨moment, hmoment⟩ := Moment.ofStamp_ok_iff.mpr ha.dated
  obtain ⟨disk, saved, hrecord, hsaved, hbecame⟩ :=
    h.saveRecord_exec fault ha ho message moment
  refine ⟨moment, disk, saved, ?_, hsaved, hmoment, hbecame⟩
  have hpath : s.recordPath (recordOf host fault report message).timestamp report.operation
      (recordOf host fault report message).errorId.plainText =
        .ok (s.directory.child (recordName moment report.operation (host.recordsTaken + 1))) :=
    recordPath_eq hmoment _ _
  rw [record_eq, Run.exec_bind_ok (makeRecord_exec report ht), hpath,
    Run.exec_bind_ok (Run.exec_ofExcept (.ok _) _), Run.exec_bind_ok hrecord]

/-- The store after a record has been saved and entered in the manifest. -/
inductive Entered (s : ErrorStore) (loc : Location) (host : Host) (fault : Fault) (report : Report)
    (message : String) : Disk → Prop where
  | mk {moment : Moment} {disk disk' : Disk}
      (dated : Moment.ofStamp host.clock.read.1 = .ok moment)
      (record : Saved s loc (recordName moment report.operation (host.recordsTaken + 1))
        (.obj (recordOf host fault report message).members) host.disk disk)
      (manifest : Saved s loc manifestName (manifestDocument (s.listing host fault report)) disk
        disk') :
      Entered s loc host fault report message disk'

/-- A record can be saved and entered in the manifest, unless that is nested too deeply. -/
theorem Usable.record_step (h : Usable s host.disk loc) (ha : Accepted host.clock.read.1)
    (ho : NamesFile report.operation) (ht : fault.tell = .ok message)
    (hdeep : ¬ TooDeep host.disk s.manifestPath) :
    ∃ disk middle, (s.record fault report).exec host =
        (s.settle fault report (recordOf host fault report message)).exec middle ∧
      Entered s loc host fault report message disk ∧ Became (drawn host) disk middle := by
  obtain ⟨moment, disk, saved, hrecord, hsaved, hmoment, hbecame⟩ := h.record_saved ha ho ht
  obtain ⟨hn, hup⟩ := recordName_plain moment ho.slash (host.recordsTaken + 1)
  obtain ⟨hkept, hentries⟩ :=
    h.manifest_kept hsaved hn hup (recordName_ne moment report.operation _).1
  have husable : Usable s saved.disk loc := hbecame.disk ▸ h.saved hsaved hn hup
  have hdeep' : ¬ TooDeep saved.disk s.manifestPath := by
    rw [hbecame.disk, hkept]
    exact hdeep
  obtain ⟨read, hmanifest, hlogged⟩ := s.manifest_exec hdeep' rfl
  have husable' : Usable s read.disk loc := hlogged.disk ▸ husable
  obtain ⟨disk', middle, hlisted, hlisting, hbecame'⟩ :=
    husable'.saveManifest_exec (listable_listing s fault report ha)
  rw [hlogged.disk, hbecame.disk] at hlisting
  refine ⟨disk', middle, ?_, .mk hmoment hsaved hlisting,
    (hbecame.trans (hbecame.disk ▸ Became.of_logged hlogged)).trans hbecame'⟩
  rw [hrecord, enter, Run.exec_bind_ok hmanifest, hbecame.disk, hentries]
  exact Run.exec_bind_ok hlisted

namespace Entered

variable (he : Entered s loc host fault report message d')

include he

theorem usable (h : Usable s host.disk loc) (ho : NamesFile report.operation) :
    Usable s d' loc := by
  obtain ⟨-, hrecord, hmanifest⟩ := he
  obtain ⟨hn, hup⟩ := recordName_plain _ ho.slash _
  exact (h.saved hrecord hn hup).saved hmanifest manifestName_plain.1 manifestName_plain.2

/-- The manifest is read again as it was saved. -/
theorem manifest_read (h : Usable s host.disk loc) (ho : NamesFile report.operation)
    (ha : Accepted host.clock.read.1) :
    ¬ TooDeep d' s.manifestPath ∧
      s.entriesIn d' = rereadEntries (s.listing host fault report) := by
  obtain ⟨-, hrecord, hmanifest⟩ := he
  obtain ⟨hn, hup⟩ := recordName_plain _ ho.slash _
  exact (h.saved hrecord hn hup).saved_manifest (listable_listing s fault report ha) hmanifest

/-- The statistics are as they were. -/
theorem stats_kept (h : Usable s host.disk loc) (ho : NamesFile report.operation) :
    (TooDeep d' s.statsPath ↔ TooDeep host.disk s.statsPath) ∧
      s.statsIn d' = s.statsIn host.disk := by
  obtain ⟨-, hrecord, hmanifest⟩ := he
  obtain ⟨hn, hup⟩ := recordName_plain _ ho.slash _
  obtain ⟨hdeep, hstats⟩ := h.stats_kept hrecord hn hup (recordName_ne _ _ _).2
  obtain ⟨hdeep', hstats'⟩ := (h.saved hrecord hn hup).stats_kept hmanifest manifestName_plain.1
    manifestName_plain.2 (by decide)
  exact ⟨hdeep'.trans hdeep, hstats'.trans hstats⟩

end Entered

/-! ## 2. Counting and pruning -/

/-- The statistics are counted and saved, and then old entries are removed. -/
theorem Usable.settle_exec (h : Usable s host.disk loc) (fault : Fault) (report : Report)
    {r : ErrorRecord} (hs : Accepted r.timestamp) (hn : Accepted host.clock.read.1)
    (hmanifest : ¬ TooDeep host.disk s.manifestPath) (hstats : ¬ TooDeep host.disk s.statsPath)
    (hc : Counts (s.statsIn host.disk) report.operation fault.name report.resultKind)
    (hids : ∀ e ∈ s.pruned (s.entriesIn host.disk), ¬ Refused e.id.plainText) :
    ∃ stats disk disk' after, (s.settle fault report r).exec host = (.ok r, after) ∧
      countAll (countTotal (s.statsIn host.disk))
        (places report.operation fault.name report.resultKind) = .ok stats ∧
      Saved s loc statsName (newStats stats r.timestamp host.clock.read.1) host.disk disk ∧
      s.entriesIn disk = s.entriesIn host.disk ∧
      Pruned s loc (s.entriesIn host.disk) disk disk' ∧
      Became { host with clock := host.clock.read.2 } disk' after := by
  obtain ⟨stats, disk, middle, hupdate, hall, hsaved, hbecame⟩ :=
    h.updateStats_exec hs hn hstats hc
  obtain ⟨hn, hup⟩ := statsName_plain
  obtain ⟨hdeep, hentries⟩ := h.manifest_kept hsaved hn hup (by decide)
  have husable : Usable s middle.disk loc := hbecame.disk ▸ h.saved hsaved hn hup
  have hread : s.entriesIn middle.disk = s.entriesIn host.disk := hbecame.disk ▸ hentries
  obtain ⟨disk', after, hprune, hpruned, hbecame'⟩ := husable.prune_exec
    (by rw [hbecame.disk, hdeep]; exact hmanifest) (by rw [hread]; exact hids)
  rw [hread, hbecame.disk] at hpruned
  have hnoted : Became after disk'
      (after.noted .error (recordedMessage r.errorId.plainText report fault)) :=
    hbecame'.disk ▸ Became.of_logged (Host.OnlyLogged.noted after .error _)
  refine ⟨stats, disk, disk', _, ?_, hall, hsaved, hentries, hpruned,
    (hbecame.trans hbecame').trans hnoted⟩
  rw [settle, Run.exec_bind_ok hupdate, Run.exec_bind_ok hprune,
    Run.exec_bind_ok (Run.exec_note _ _ after)]
  rfl

theorem Usable.settle_fails_iff (h : Usable s host.disk loc) (fault : Fault) (report : Report)
    {r : ErrorRecord} (hs : Accepted r.timestamp) (hn : Accepted host.clock.read.1)
    (hmanifest : ¬ TooDeep host.disk s.manifestPath) :
    (s.settle fault report r).FailsAt host ↔ TooDeep host.disk s.statsPath ∨
      ¬ Counts (s.statsIn host.disk) report.operation fault.name report.resultKind ∨
      ∃ e ∈ s.pruned (s.entriesIn host.disk), Refused e.id.plainText := by
  have hcounting := h.updateStats_fails_iff report.operation fault.name report.resultKind hs hn
  by_cases hfails : TooDeep host.disk s.statsPath ∨
      ¬ Counts (s.statsIn host.disk) report.operation fault.name report.resultKind
  · refine iff_of_true ?_ (hfails.imp_right .inl)
    rw [settle, Run.FailsAt.bind_iff]
    exact .inl (hcounting.mpr hfails)
  · obtain ⟨hstats, hc⟩ := not_or.mp hfails
    obtain ⟨stats, disk, middle, hupdate, -, hsaved, hbecame⟩ :=
      h.updateStats_exec hs hn hstats (Classical.not_not.mp hc)
    obtain ⟨hn, hup⟩ := statsName_plain
    obtain ⟨hdeep, hentries⟩ := h.manifest_kept hsaved hn hup (by decide)
    have husable : Usable s middle.disk loc := hbecame.disk ▸ h.saved hsaved hn hup
    rw [settle, Run.FailsAt.bind_iff_second hupdate, Run.FailsAt.bind_iff_first,
      husable.prune_fails_iff, hbecame.disk, hentries, hdeep]
    · simp only [hstats, hc, hmanifest, false_or]
    · rintro _ after ⟨trouble, hno⟩
      cases hno

/-! ## 3. Recording -/

/-- What makes recording a failure fail. -/
def Obstructed (s : ErrorStore) (host : Host) (fault : Fault) (report : Report) : Prop :=
  (∃ trouble, fault.tell = .error trouble) ∨ TooDeep host.disk s.manifestPath ∨
    TooDeep host.disk s.statsPath ∨
    ¬ Counts (s.statsIn host.disk) report.operation fault.name report.resultKind ∨
    ∃ e ∈ s.pruned (rereadEntries (s.listing host fault report)), Refused e.id.plainText

theorem Usable.record_fails_iff (h : Usable s host.disk loc) (fault : Fault) (report : Report)
    (ho : NamesFile report.operation)
    (hnow : Accepted host.clock.read.1) (hlater : Accepted host.clock.read.2.read.1) :
    (s.record fault report).FailsAt host ↔ Obstructed s host fault report := by
  unfold Obstructed
  cases ht : fault.tell with
  | error trouble =>
    refine iff_of_true ?_ (.inl ⟨trouble, rfl⟩)
    rw [record_eq, Run.FailsAt.bind_iff]
    exact .inl (makeRecord_fails_iff.mpr ⟨trouble, ht⟩)
  | ok message =>
    have htells : ¬ ∃ trouble, (Except.ok message : Except Fault String) = .error trouble := by simp
    by_cases hdeep : TooDeep host.disk s.manifestPath
    · refine iff_of_true ?_ (.inr (.inl hdeep))
      obtain ⟨moment, disk, saved, hrecord, hsaved, -, hbecame⟩ := h.record_saved hnow ho ht
      obtain ⟨hn, hup⟩ := recordName_plain moment ho.slash (host.recordsTaken + 1)
      have hkept := (h.manifest_kept hsaved hn hup (recordName_ne _ _ _).1).1
      unfold Run.FailsAt
      rw [hrecord, enter]
      refine Run.FailsAt.bind_iff.mpr (.inl (s.manifest_fails_iff.mpr ?_))
      rw [hbecame.disk, hkept]
      exact hdeep
    · obtain ⟨disk, middle, hexec, hentered, hbecame⟩ := h.record_step hnow ho ht hdeep
      obtain ⟨hread, hentries⟩ := hentered.manifest_read h ho hnow
      obtain ⟨hstats, hcounts⟩ := hentered.stats_kept h ho
      have husable : Usable s middle.disk loc := hbecame.disk ▸ hentered.usable h ho
      have hclock : middle.clock = host.clock.read.2 := hbecame.clock
      have hsettle := husable.settle_fails_iff fault report
        (r := recordOf host fault report message) hnow (hclock ▸ hlater) (hbecame.disk ▸ hread)
      rw [hbecame.disk, hentries, hstats, hcounts] at hsettle
      unfold Run.FailsAt at hsettle ⊢
      rw [hexec, hsettle]
      simp only [htells, hdeep, false_or]

/-- Recording that nothing obstructs returns the record, and this is what it leaves: the record in its
file and in the manifest, the failure counted, and old entries removed. -/
theorem Usable.record_exec (h : Usable s host.disk loc) (ho : NamesFile report.operation)
    (hnow : Accepted host.clock.read.1) (hlater : Accepted host.clock.read.2.read.1)
    (hclear : ¬ Obstructed s host fault report) :
    ∃ message entered stats counted disk after, fault.tell = .ok message ∧
      (s.record fault report).exec host = (.ok (recordOf host fault report message), after) ∧
      Entered s loc host fault report message entered ∧
      countAll (countTotal (s.statsIn host.disk))
        (places report.operation fault.name report.resultKind) = .ok stats ∧
      Saved s loc statsName (newStats stats host.clock.read.1 host.clock.read.2.read.1) entered
        counted ∧
      s.entriesIn counted = rereadEntries (s.listing host fault report) ∧
      Pruned s loc (rereadEntries (s.listing host fault report)) counted disk ∧
      Became { drawn host with clock := host.clock.read.2.read.2 } disk after := by
  unfold Obstructed at hclear
  rw [not_or, not_or, not_or, not_or, Classical.not_not] at hclear
  obtain ⟨htells, hmanifest, hstats, hcounts, hids⟩ := hclear
  cases ht : fault.tell with
  | error trouble => exact absurd ⟨trouble, ht⟩ htells
  | ok message =>
    obtain ⟨entered, middle, hstep, hentered, hbecame⟩ := h.record_step hnow ho ht hmanifest
    obtain ⟨hread, hentries⟩ := hentered.manifest_read h ho hnow
    obtain ⟨hkept, hsame⟩ := hentered.stats_kept h ho
    have husable : Usable s middle.disk loc := hbecame.disk ▸ hentered.usable h ho
    have hclock : middle.clock = host.clock.read.2 := hbecame.clock
    obtain ⟨stats, counted, disk, after, hsettle, hall, hsaved, hsameEntries, hpruned, hafter⟩ :=
      husable.settle_exec fault report
        (r := recordOf host fault report message) hnow (hclock ▸ hlater) (hbecame.disk ▸ hread)
        (by rw [hbecame.disk, hkept]; exact hstats) (by rw [hbecame.disk, hsame]; exact hcounts)
        (by
          rw [hbecame.disk, hentries]
          exact fun e he hr => hids ⟨e, he, hr⟩)
    rw [hbecame.disk, hsame] at hall
    rw [hbecame.disk, hclock] at hsaved
    rw [hbecame.disk, hentries] at hsameEntries hpruned
    refine ⟨message, entered, stats, counted, disk, after, rfl, hstep.trans hsettle, hentered,
      hall, hsaved, hsameEntries, hpruned, ?_⟩
    obtain ⟨log, rfl⟩ := hbecame
    obtain ⟨log', rfl⟩ := hafter
    exact ⟨log', rfl⟩

/-- Where recording returns, the manifest has no more entries than it may have. -/
theorem Usable.record_bounded (h : Usable s host.disk loc) (ho : NamesFile report.operation)
    (hnow : Accepted host.clock.read.1) (hlater : Accepted host.clock.read.2.read.1)
    (hclear : ¬ Obstructed s host fault report) {r : ErrorRecord} {after : Host}
    (hexec : (s.record fault report).exec host = (.ok r, after)) :
    ((s.entriesIn after.disk).length : Int) ≤ max s.maxErrors 0 := by
  obtain ⟨message, entered, stats, counted, disk, last, -, hrecord, hentered, -, hsaved, hentries,
    hpruned, hbecame⟩ := h.record_exec ho hnow hlater hclear
  rw [hexec] at hrecord
  cases hrecord
  rw [hbecame.disk]
  refine Usable.pruned_bounded ?_ (hentries ▸ hpruned)
  exact (hentered.usable h ho).saved hsaved statsName_plain.1 statsName_plain.2

/-- **Recording in a damaged store** fails exactly if one of the files is nested too deeply, the
failure cannot be counted, an id to be pruned is refused, or the failure has no text; otherwise it
returns a record and leaves a manifest that is no longer than it may be. -/
theorem record_in_damaged_store (h : Usable s host.disk loc) (ho : NamesFile report.operation)
    (hnow : Accepted host.clock.read.1) (hlater : Accepted host.clock.read.2.read.1) :
    ((s.record fault report).FailsAt host ↔
      (∃ trouble, fault.tell = .error trouble) ∨ TooDeep host.disk s.manifestPath ∨
        TooDeep host.disk s.statsPath ∨
        ¬ Counts (s.statsIn host.disk) report.operation fault.name report.resultKind ∨
        ∃ e ∈ s.pruned (rereadEntries (s.listing host fault report)), Refused e.id.plainText) ∧
    ∀ r after, (s.record fault report).exec host = (.ok r, after) →
      ((s.entriesIn after.disk).length : Int) ≤ max s.maxErrors 0 := by
  have hfails := h.record_fails_iff fault report ho hnow hlater
  refine ⟨hfails, fun r after hexec => h.record_bounded ho hnow hlater (fun hno => ?_) hexec⟩
  obtain ⟨trouble, htrouble⟩ := hfails.mpr hno
  rw [hexec] at htrouble
  cases htrouble

/-- A store whose statistics count a class of failures with a text. -/
theorem record_fails_on_text_count :
    let s : ErrorStore := { directory := ⟨.root, []⟩ }
    let stats := "\x7b\"by_type\": \x7b\"ValueError\": \"x\"\x7d\x7d"
    let host : Host := {
      disk := { tree := ⟨[(["stats.json"], .file (.bytes (Text.encode stats)) 0o644)]⟩ } }
    (s.record (.ofText .valueError "bad magic")
      { operation := "disassemble", resultKind := "failure" }).FailsAt host := by
  intro s stats host
  have hnode : ∀ l node, host.disk.tree.get? l = some node → l ≠ [] →
      l = ["stats.json"] ∧ node.isFile = true := by
    intro l node hl hne
    unfold Files.Tree.get? at hl
    rw [if_neg hne] at hl
    by_cases heq : l = ["stats.json"]
    · subst heq
      cases hl
      exact ⟨rfl, rfl⟩
    · have hother : (l == ["stats.json"]) = false := by simpa using heq
      simp [host, List.lookup_cons, hother] at hl
  have hsettled : Settled s host.disk [] := by
    refine .of_files (fun part hpart => by cases hpart) (by decide) ⟨_, rfl⟩ (fun name node hl => ?_)
      fun name rest hrest => ?_
    · obtain ⟨hname, hfile⟩ := hnode _ node hl (by simp)
      obtain rfl : name = "stats.json" := by simpa using hname
      exact ⟨hfile, statsName_plain⟩
    · cases hl : host.disk.tree.get? ([] ++ name :: rest) with
      | none => rfl
      | some node =>
        obtain ⟨hname, -⟩ := hnode _ node hl (by simp)
        exact absurd (List.cons.inj hname).2 hrest
  have hfits : Fits s statsName := ⟨by decide, by decide⟩
  have husable : Usable s host.disk [] := {
    hsettled with
    nameable := Disk.nameable_of_ascii (by decide)
    manifestFits := ⟨by decide, by decide⟩
    statsFits := hfits
    fits := fun name hname => by
      obtain ⟨node, hl⟩ := Files.Tree.mem_children_iff.mp hname
      obtain ⟨hself, -⟩ := hnode _ node hl (by simp)
      obtain rfl : name = "stats.json" := by simpa using hself
      exact hfits }
  have htext : (countOf (s.statsIn host.disk) "by_type" "ValueError").isNumber = false := by
    decide +kernel
  have hstamp : ∀ n : Int, 0 ≤ n → n ≤ 2000000000 → Accepted (.int n) := fun n hlow hhigh =>
    ⟨⟨n, rfl, by unfold Moment.firstSecond; omega, by unfold Moment.lastSecond; omega⟩,
      fun x hx => by cases hx⟩
  refine (record_in_damaged_store husable
    ⟨by decide, Disk.nameable_of_ascii (by decide)⟩ (hstamp _ (by decide) (by decide))
    (hstamp _ (by decide) (by decide))).1.mpr (.inr (.inr (.inr (.inl fun hc => ?_))))
  have hnumber := (hc.each ("by_type", "ValueError") (by simp [places]; rfl)).1
  rw [htext] at hnumber
  cases hnumber

end ErrorStore

end Dissect
