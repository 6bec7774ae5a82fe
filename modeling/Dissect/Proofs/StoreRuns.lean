/-
# Whole runs of a store

A store that is opened in an empty directory, and from then on only records failures, is cleared and is
opened again, in any order, has its books in order at any time (`History.books`).  What the books say
can be seen from outside: the manifest lists the greatest of the records made since the store was last
cleared, as many as the store keeps; the directory holds exactly their files; the record of an id that
is listed is found, and of any other id that was given none is; and clearing tells how many there were
(`History.keeps_greatest`).
-/
import Dissect.Proofs.Books

namespace Dissect

open Files (Disk Location)
open Retention (Greatest)

namespace ErrorStore

variable {s : ErrorStore} {loc : Location} {start host : Host} {all current listed : List ErrorRecord}
  {r : ErrorRecord}

/-! ## 1. Histories -/

/-- A failure can be recorded as far as names and time stamps go: the operation may stand in the name of
a file, that name fits, the clock reads accepted time stamps, and there is an id left. -/
structure CanRecord (s : ErrorStore) (host : Host) (report : Report) : Prop where
  slash : '/' ∉ report.operation.toList
  fits : ∀ moment, Moment.ofStamp host.clock.read.1 = .ok moment →
    Fits s (recordName moment report.operation (host.recordsTaken + 1))
  now : Accepted host.clock.read.1
  later : Accepted host.clock.read.2.read.1
  idLeft : host.recordsTaken + 1 < 16 ^ 16

/-- The hosts that a store can be on after it was opened on a first one, with all the records that it
has made and those that it made since it was last cleared. -/
inductive History (s : ErrorStore) (start : Host) :
    List ErrorRecord → List ErrorRecord → Host → Prop where
  | opened : History s start [] [] ((openAt (some s.directory) s.maxErrors).exec start).2
  | reopened {all current : List ErrorRecord} {host : Host} (h : History s start all current host) :
      History s start all current ((openAt (some s.directory) s.maxErrors).exec host).2
  | recorded {all current : List ErrorRecord} {host : Host} {report : Report}
      (h : History s start all current host) (fault : Fault) (can : CanRecord s host report) :
      History s start (all ++ ((s.record fault report).exec host).1.toOption.toList)
        (current ++ ((s.record fault report).exec host).1.toOption.toList)
        ((s.record fault report).exec host).2
  | cleared {all current : List ErrorRecord} {host : Host} (h : History s start all current host) :
      History s start all [] (s.clear.exec host).2

/-- Recording makes a record and keeps the books, if the failure has a text and the operation can stand
in a path; otherwise it fails, and the store is as it was. -/
theorem Books.record_cases {report : Report}
    (h : Books s host.disk loc host.recordsTaken all current listed) (fault : Fault)
    (can : CanRecord s host report) :
    ((∃ message, fault.tell = .ok message) ∧ Disk.Nameable report.operation ∧
      ∃ r listed' after, (s.record fault report).exec host = (.ok r, after) ∧
        Books s after.disk loc after.recordsTaken (all ++ [r]) (current ++ [r]) listed') ∨
    (¬ ((∃ message, fault.tell = .ok message) ∧ Disk.Nameable report.operation) ∧
      ∃ trouble, (s.record fault report).exec host = (.error trouble, drawn host)) := by
  obtain ⟨hslash, hfits, hnow, hlater, hleft⟩ := can
  by_cases hmade : (∃ message, fault.tell = .ok message) ∧ Disk.Nameable report.operation
  · obtain ⟨⟨message, ht⟩, hnameable⟩ := hmade
    obtain ⟨listed', disk, after, hexec, ⟨log, rfl⟩, hbooks⟩ :=
      h.record ⟨hslash, hnameable⟩ hnow hlater hleft hfits ht
    exact .inl ⟨⟨message, ht⟩, hnameable, _, listed', _, hexec, hbooks⟩
  · have hno : (∃ trouble, fault.tell = .error trouble) ∨ ¬ Disk.Nameable report.operation := by
      cases ht : fault.tell with
      | error trouble => exact .inl ⟨trouble, rfl⟩
      | ok message => exact .inr fun hnameable => hmade ⟨⟨message, ht⟩, hnameable⟩
    exact .inr ⟨hmade, record_unmade s hslash hno hnow⟩

/-- **The books are in order at any time.** -/
theorem History.books (h : History s start all current host) (hu : Usable s start.disk loc)
    (hempty : start.disk.tree.children loc = []) :
    ∃ listed, Books s host.disk loc host.recordsTaken all current listed := by
  induction h with
  | opened =>
    obtain ⟨disk, after, hexec, ⟨log, rfl⟩, hbooks⟩ := hu.open_empty hempty
    rw [hexec]
    exact ⟨[], hbooks⟩
  | reopened _ ih =>
    obtain ⟨listed, hbooks⟩ := ih
    obtain ⟨after, hexec, ⟨log, rfl⟩⟩ := hbooks.reopen
    rw [hexec]
    exact ⟨listed, hbooks⟩
  | recorded _ fault can ih =>
    obtain ⟨listed, hbooks⟩ := ih
    rcases hbooks.record_cases fault can with
      ⟨-, -, r, listed', after, hexec, hbooks'⟩ | ⟨-, trouble, hexec⟩
    · rw [hexec]
      exact ⟨listed', hbooks'⟩
    · rw [hexec]
      simp only [Except.toOption, Option.toList, List.append_nil]
      exact ⟨listed, hbooks.mono (Nat.le_succ _)⟩
  | cleared _ ih =>
    obtain ⟨listed, hbooks⟩ := ih
    obtain ⟨disk, after, hexec, ⟨log, rfl⟩, hbooks'⟩ := hbooks.clear
    rw [hexec]
    exact ⟨[], hbooks'⟩

/-! ## 2. What can be seen of the books -/

/-- The pattern for the id of a record describes its file, if the record is listed, and no other. -/
theorem Books.described_iff {n : ℕ} {name : String}
    (h : Books s host.disk loc host.recordsTaken all current listed) (hr : r ∈ all) (hmade : Made n r)
    (hname : name ∈ host.disk.tree.children loc) :
    describes (idOf n) name = true ↔ r ∈ listed ∧ name = r.fileName := by
  constructor
  · intro hdescribes
    rcases h.holds.mem_iff.mp hname with rfl | rfl | ⟨r', hr', rfl⟩
    · exact absurd (underscore_of_describes hdescribes) (by decide)
    · exact absurd (underscore_of_describes hdescribes) (by decide)
    · obtain ⟨m, -, hm⟩ := h.numbered.made r' (h.listed_subset hr')
      have hid : r'.errorId = r.errorId := by
        rw [hm.id, hmade.id, hm.describes_iff.mp hdescribes]
      obtain rfl := h.numbered.eq_of_id (h.listed_subset hr') hr hid
      exact ⟨hr', rfl⟩
  · rintro ⟨-, rfl⟩
    exact hmade.describes_iff.mpr rfl

/-- The record of an id that is listed is found. -/
theorem Books.get_listed (h : Books s host.disk loc host.recordsTaken all current listed)
    (hr : r ∈ listed) :
    ∃ after, (s.get? r.errorId.plainText).exec host = (.ok (some r.reread), after) := by
  obtain ⟨n, -, hmade⟩ := h.numbered.made r (h.listed_subset hr)
  have hthere : r.fileName ∈ host.disk.tree.children loc :=
    h.holds.mem_iff.mpr (.inr (.inr ⟨r, hr, rfl⟩))
  obtain ⟨mode, hnode⟩ := h.holds.files r hr
  have honly : (host.disk.tree.children loc).filter (describes (idOf n)) = [r.fileName] := by
    have hnodup := h.holds.nodup h.numbered h.listed_subset h.greatest.nodup
    refine List.perm_singleton.mp ((List.perm_ext_iff_of_nodup (hnodup.filter _)
      (List.nodup_singleton _)).mpr fun name => ?_)
    rw [List.mem_filter, List.mem_singleton]
    constructor
    · rintro ⟨hname, hdescribes⟩
      exact ((h.described_iff (h.listed_subset hr) hmade hname).mp hdescribes).2
    · rintro rfl
      exact ⟨hthere, hmade.describes_iff.mpr rfl⟩
  obtain ⟨after, hget, -⟩ := h.usable.get_listed hmade (h.usable.fits _ hthere) honly hnode
  rw [hmade.id]
  exact ⟨after, hget⟩

/-- There is no record of an id that is not listed any more. -/
theorem Books.get_missing (h : Books s host.disk loc host.recordsTaken all current listed)
    (hr : r ∈ all) (hmissing : r ∉ listed) :
    (s.get? r.errorId.plainText).exec host = (.ok none, host) := by
  obtain ⟨n, -, hmade⟩ := h.numbered.made r hr
  rw [hmade.id]
  refine h.usable.get_none (not_refused_idOf n) fun name hname => ?_
  rw [Bool.eq_false_iff]
  exact fun hdescribes => hmissing ((h.described_iff hr hmade hname).mp hdescribes).1

/-- **A store keeps the greatest of its records.**  At any time after it was opened in an empty
directory, the manifest lists the greatest of the records made since the store was last cleared, by
time stamp and then by the order in which they were made, the newest first; the directory holds the
files of these records and no others; they are found by their ids, and records that were removed are
not; clearing tells how many there are, opening the store again gives the store, and recording makes a
record unless the failure has no text or the operation cannot stand in a path. -/
theorem History.keeps_greatest (h : History s start all current host) (hu : Usable s start.disk loc)
    (hempty : start.disk.tree.children loc = []) :
    ∃ listed entries names,
      Greatest stampOf s.maxErrors.toNat current listed ∧
      (s.manifest.exec host).1 = .ok entries ∧
      List.Forall₂ ManifestEntry.Shows listed entries ∧
      host.disk.names s.directory.text = .ok names ∧ names.Nodup ∧
      names.Perm (manifestName :: statsName :: listed.map ErrorRecord.fileName) ∧
      (∀ r ∈ listed, ((s.get? r.errorId.plainText).exec host).1 = .ok (some r.reread)) ∧
      (∀ r ∈ all, r ∉ listed → ((s.get? r.errorId.plainText).exec host).1 = .ok none) ∧
      (s.clear.exec host).1 = .ok entries.length ∧
      ((openAt (some s.directory) s.maxErrors).exec host).1 = .ok s ∧
      ∀ fault report, CanRecord s host report →
        ((∃ r, ((s.record fault report).exec host).1 = .ok r) ↔
          (∃ message, fault.tell = .ok message) ∧ Disk.Nameable report.operation) := by
  obtain ⟨listed, hbooks⟩ := h.books hu hempty
  obtain ⟨_, hmanifest, -⟩ := s.manifest_exec hbooks.manifest rfl
  obtain ⟨_, _, hclear, -⟩ := hbooks.clear
  obtain ⟨_, hopen, -⟩ := hbooks.reopen
  have hlength : listed.length = (s.entriesIn host.disk).length := hbooks.lists.length_eq
  refine ⟨listed, s.entriesIn host.disk, host.disk.tree.children loc, hbooks.greatest,
    by rw [hmanifest], hbooks.lists.imp fun _ _ hshown => hshown.shows, hbooks.usable.names_eq,
    hbooks.holds.nodup hbooks.numbered hbooks.listed_subset hbooks.greatest.nodup,
    hbooks.holds.names, fun r hr => ?_, fun r hr hmissing => ?_, by rw [hclear, hlength],
    by rw [hopen], fun fault report can => ?_⟩
  · obtain ⟨_, hget⟩ := hbooks.get_listed hr
    rw [hget]
  · rw [hbooks.get_missing hr hmissing]
  · rcases hbooks.record_cases fault can with
      ⟨ht, hnameable, r, _, _, hexec, -⟩ | ⟨hno, trouble, hexec⟩
    · rw [hexec]
      exact iff_of_true ⟨r, rfl⟩ ⟨ht, hnameable⟩
    · rw [hexec]
      refine iff_of_false ?_ hno
      rintro ⟨r, hr⟩
      cases hr

/-- A store that keeps one record, after two failures within one second. -/
theorem newer_of_two_kept :
    let s : ErrorStore := { directory := ⟨.root, []⟩, maxErrors := 1 }
    let start : Host := { disk := { tree := ⟨[]⟩ }, clock := .given (.int 1700000000) [] }
    ∃ first second listed host, History s start [first, second] [first, second] host ∧
      Greatest stampOf 1 [first, second] listed ∧
      (s.clear.exec host).1 = .ok 1 := by
  intro s start
  let report : Report := { operation := "disassemble", resultKind := "failure" }
  have husable : Usable s start.disk [] := .emptyRoot 1
  have hmoment : Moment.ofStamp (.int 1700000000) = .ok ⟨2023, 11, 14, 22, 13, 20⟩ := rfl
  have haccepted : Accepted (.int 1700000000) := accepted_int hmoment
  have hcan : ∀ host : Host, host.clock = start.clock → host.recordsTaken < 2 →
      CanRecord s host report := by
    intro host hclock hfew
    refine ⟨by decide, fun moment hm => ?_, by rw [hclock]; exact haccepted,
      by rw [hclock]; exact haccepted, by omega⟩
    rw [hclock] at hm
    cases hmoment.symm.trans hm
    have hfits : ∀ n < 2, Fits s (recordName ⟨2023, 11, 14, 22, 13, 20⟩ "disassemble" (n + 1)) := by
      unfold Fits
      decide +kernel
    exact hfits _ hfew
  -- each record leaves the clock, and takes one id
  have hstep : ∀ all listed host, host.clock = start.clock → host.recordsTaken < 2 →
      Books s host.disk [] host.recordsTaken all all listed → ∃ r listed' after,
        (s.record (.ofText .valueError "bad magic") report).exec host = (.ok r, after) ∧
        after.clock = start.clock ∧ after.recordsTaken = host.recordsTaken + 1 ∧
        Books s after.disk [] after.recordsTaken (all ++ [r]) (all ++ [r]) listed' := by
    intro all listed host hclock hfew hbooks
    have can := hcan host hclock hfew
    have ht : (Fault.ofText .valueError "bad magic").tell = .ok "bad magic" := rfl
    obtain ⟨listed', disk, after, hexec, ⟨log, rfl⟩, hbooks'⟩ := hbooks.record
      ⟨can.slash, Disk.nameable_of_ascii (by decide)⟩ can.now can.later can.idLeft can.fits ht
    refine ⟨_, listed', _, hexec, ?_, rfl, hbooks'⟩
    show host.clock.read.2.read.2 = start.clock
    rw [hclock]
    rfl
  obtain ⟨disk, opened, hopen, ⟨log, rfl⟩, hbooks⟩ := husable.open_empty rfl
  obtain ⟨first, listed, middle, hfirst, hclock, htaken, hbooks⟩ :=
    hstep [] [] { start with disk, log } rfl Nat.zero_lt_two hbooks
  have hone : middle.recordsTaken < 2 := htaken ▸ Nat.one_lt_two
  obtain ⟨second, listed', after, hsecond, -, -, hbooks⟩ :=
    hstep _ listed middle hclock hone hbooks
  have hopened : History s start [] [] { start with disk, log } := by
    have h : History s start [] [] _ := .opened
    rwa [hopen] at h
  have hmiddle : History s start [first] [first] middle := by
    have h := hopened.recorded (.ofText .valueError "bad magic") (hcan _ rfl Nat.zero_lt_two)
    rwa [hfirst] at h
  have hafter : History s start [first, second] [first, second] after := by
    have h := hmiddle.recorded (.ofText .valueError "bad magic")
      (hcan _ hclock hone)
    rwa [hsecond] at h
  obtain ⟨listed, entries, names, hgreatest, -, hshows, -, -, -, -, -, hclear, -⟩ :=
    hafter.keeps_greatest husable rfl
  have hlength : entries.length = 1 := hshows.length_eq.symm.trans hgreatest.length
  exact ⟨first, second, listed, after, hafter, hgreatest, hlength ▸ hclear⟩

end ErrorStore

end Dissect
