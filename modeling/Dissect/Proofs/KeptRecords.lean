/-
# Records that stay

A record whose file has been written is found by its id, unchanged, for as long as no call prunes it:
no later record has its id, so its file stays the only one that the pattern for the id describes, and
nothing writes to it (`Stored.recorded`).  It does not matter what the other files of the store hold, nor
how the later calls end.

What is found is the record as it reads back (`ErrorRecord.reread`).  This is the record itself where no
text of the failure holds single halves of pairs of code units (`reread_recordOf`).
-/
import Dissect.Proofs.RecordTraces

namespace Dissect

open Files (Disk Location Tree)

/-! ## 1. Records that read back unchanged -/

namespace ErrorStore

open Text (IsWhole)

/-- All texts of a report are whole. -/
structure Report.IsWhole (report : Report) : Prop where
  operation : Text.IsWhole report.operation
  resultKind : Text.IsWhole report.resultKind
  backend : ∀ t ∈ report.backend, Text.IsWhole t
  className : ∀ t ∈ report.className, Text.IsWhole t
  toolRoot : ∀ t ∈ report.toolRoot, Text.IsWhole t
  toolOutput : ∀ t ∈ report.toolOutput, Text.IsWhole t
  traceback : ∀ t ∈ report.traceback, Text.IsWhole t

variable {s : ErrorStore} {loc : Location} {host after later : Host} {fault : Fault}
  {report : Report} {message : String} {r : ErrorRecord} {n : ℕ}

/-- **A record of whole texts reads back as itself.** -/
theorem reread_recordOf (hnow : Accepted host.clock.read.1) (hreport : report.IsWhole)
    (hmessage : IsWhole message) :
    (recordOf host fault report message).reread = recordOf host fault report message := by
  have hoption : ∀ {text : Option String}, (∀ t ∈ text, IsWhole t) →
      (Json.ofText? text).reread = Json.ofText? text := Json.reread_ofText?
  have hid : (Json.str (idOf (host.recordsTaken + 1))).reread =
      .str (idOf (host.recordsTaken + 1)) := by
    rw [Json.reread, Json.pairedText_of_ascii fun c hc => (idOf_ascii _ c hc).2]
  have houtput : ∀ t ∈ report.toolOutput.filter (· != ""), IsWhole t := fun t ht =>
    hreport.toolOutput t (Option.mem_filter_iff.mp ht).1
  unfold ErrorRecord.reread recordOf
  dsimp only
  rw [hnow.dated.isFinite.reread, hid, hreport.operation.reread, hreport.resultKind.reread,
    fault.reread_name, hmessage.reread, hoption hreport.backend, hoption hreport.className, hoption hreport.toolRoot,
    hoption houtput, hoption hreport.traceback]

/-! ## 2. Records in their files -/

/-- The store holds the record under its name, and no other file has its id. -/
structure Stored (s : ErrorStore) (loc : Location) (n : ℕ) (r : ErrorRecord) (host : Host) :
    Prop where
  usable : Usable s host.disk loc
  made : Made n r
  taken : n ≤ host.recordsTaken
  file : ∃ mode, nodeAt host.disk loc r.fileName =
    some (.file (.bytes (fileBytes (.obj r.members))) mode)
  only : ∀ name ∈ host.disk.tree.children loc, describes (idOf n) name = true → name = r.fileName

namespace Stored

/-- **A record that is stored is found.** -/
theorem get (h : Stored s loc n r host) :
    ∃ after, (s.get? (idOf n)).exec host = (.ok (some r.reread), after) ∧
      host.OnlyLogged after := by
  obtain ⟨mode, hnode⟩ := h.file
  have hthere : r.fileName ∈ host.disk.tree.children loc := Tree.mem_children_iff.mpr ⟨_, hnode⟩
  cases hfound : (host.disk.tree.children loc).filter (describes (idOf n)) with
  | nil =>
    have hmem := List.mem_filter.mpr ⟨hthere, h.made.describes_iff.mpr rfl⟩
    rw [hfound] at hmem
    cases hmem
  | cons first others =>
    have hfirst : first ∈ (host.disk.tree.children loc).filter (describes (idOf n)) :=
      hfound ▸ List.mem_cons_self
    obtain ⟨hmem, hdescribes⟩ := List.mem_filter.mp hfirst
    rw [h.only first hmem hdescribes] at hfound
    exact h.usable.get_first (not_refused_idOf n) h.made (h.usable.fits _ hthere) hfound hnode

/-- Only the disk and the numbers that were given count. -/
theorem congr (h : Stored s loc n r host) (hdisk : after.disk = host.disk)
    (htaken : after.recordsTaken = host.recordsTaken) : Stored s loc n r after where
  usable := hdisk ▸ h.usable
  made := h.made
  taken := htaken ▸ h.taken
  file := hdisk ▸ h.file
  only := hdisk ▸ h.only

/-- What only writes the books and deletes other files leaves the record stored. -/
theorem trimmed {gone : String → Prop} (h : Stored s loc n r host)
    (ht : Trimmed s loc IsBook gone host after) (hspared : ¬ gone r.fileName) :
    Stored s loc n r after := by
  have hbook : ¬ IsBook r.fileName := not_or.mpr h.made.fileName_ne
  refine ⟨ht.usable, h.made, ht.taken ▸ h.taken, ?_, fun name hname hdescribes => ?_⟩
  · rcases ht.node _ hbook with hsame | ⟨hgone, -⟩
    · exact hsame ▸ h.file
    · exact absurd hgone hspared
  · obtain ⟨node, hnode⟩ := Tree.mem_children_iff.mp hname
    have hother : ¬ IsBook name := by
      rintro (rfl | rfl)
      · exact absurd (underscore_of_describes hdescribes) (by decide)
      · exact absurd (underscore_of_describes hdescribes) (by decide)
    refine h.only name ?_ hdescribes
    rcases ht.node name hother with hsame | ⟨-, hnone⟩
    · exact Tree.mem_children_iff.mpr ⟨node, hsame.symm.trans hnode⟩
    · cases hnone.symm.trans hnode

/-- A record with another id is saved beside it. -/
theorem filed {filed : Host} (h : Stored s loc n r host) (hf : Filed s loc host fault report filed.disk)
    (htaken : filed.recordsTaken = host.recordsTaken + 1)
    (hleft : host.recordsTaken + 1 < 16 ^ 16) : Stored s loc n r filed := by
  have hn := h.taken
  refine ⟨(hf.usable h.usable).1, h.made, by omega, ?_, ?_⟩
  · generalize filed.disk = disk at hf
    cases hf with
    | nothing => exact h.file
    | saved names dated text saved =>
      rw [saved.others fun hname => ?_]
      · exact h.file
      · have hid := h.made.describes_iff (m := n).mpr rfl
        rw [hname, describes_recordName] at hid
        have hsame := idOf_inj hleft (by omega) hid
        omega
  · generalize filed.disk = disk at hf
    cases hf with
    | nothing => exact h.only
    | @saved moment _ _ names dated text saved =>
      intro name hname hdescribes
      by_cases hnew : name = recordName moment report.operation (host.recordsTaken + 1)
      · rw [hnew, describes_recordName] at hdescribes
        have hsame := idOf_inj hleft (by omega) hdescribes
        omega
      · obtain ⟨node, hnode⟩ := Tree.mem_children_iff.mp hname
        exact h.only name (Tree.mem_children_iff.mpr
          ⟨node, (saved.others hnew).symm.trans hnode⟩) hdescribes

/-- **Recording another failure leaves the record stored**, unless it prunes it. -/
theorem recorded (h : Stored s loc n r host) (fault : Fault) (report : Report)
    (hnow : Accepted host.clock.read.1) (hleft : host.recordsTaken + 1 < 16 ^ 16)
    (hspared : ¬ s.Drops (rereadEntries (s.listing host fault report)) r.fileName) :
    Stored s loc n r ((s.record fault report).exec host).2 := by
  obtain ⟨filed, hfiled, htaken, htrimmed⟩ := h.usable.record_trims fault report hnow
  exact (h.filed hfiled htaken hleft).trimmed htrimmed hspared

end Stored

/-! ## 3. Calls that record -/

/-- What is returned once the record is saved is the record. -/
theorem enter_returns {result : ErrorRecord}
    (h : (s.enter fault report r).exec host = (.ok result, after)) : result = r := by
  have hpeel : ∀ {α : Type} {step : Run α} {next : α → Run ErrorRecord} {host : Host},
      (step >>= next).exec host = (.ok result, after) →
        ∃ a middle, (next a).exec middle = (.ok result, after) := by
    intro α step next host hexec
    rcases hstep : step.exec host with ⟨_ | a, middle⟩
    · rw [Run.exec_bind_error hstep] at hexec
      cases hexec
    · exact ⟨a, middle, Run.exec_bind_ok hstep ▸ hexec⟩
  unfold enter settle at h
  obtain ⟨_, _, h⟩ := hpeel h
  obtain ⟨_, _, h⟩ := hpeel h
  obtain ⟨_, _, h⟩ := hpeel h
  obtain ⟨_, _, h⟩ := hpeel h
  obtain ⟨_, _, h⟩ := hpeel h
  cases h
  rfl

/-- Recording the failure deletes its own record again. -/
def PrunesAtOnce (s : ErrorStore) (host : Host) (fault : Fault) (report : Report) : Prop :=
  s.Drops (rereadEntries (s.listing host fault report))
    (recordOf host fault report fault.message).fileName

/-- **The record of a failure is stored**, however the call that makes it ends, unless the call prunes
it at once. -/
theorem Usable.record_stored (h : Usable s host.disk loc) (ho : NamesFile report.operation)
    (hfits : ∀ moment, Moment.ofStamp host.clock.read.1 = .ok moment →
      Fits s (recordName moment report.operation (host.recordsTaken + 1)))
    (hnow : Accepted host.clock.read.1)
    (hfresh : ∀ name ∈ host.disk.tree.children loc,
      describes (idOf (host.recordsTaken + 1)) name = false)
    {message : String} (ht : fault.tell = .ok message) (hspared : ¬ s.PrunesAtOnce host fault report) :
    Stored s loc (host.recordsTaken + 1) (recordOf host fault report fault.message)
      ((s.record fault report).exec host).2 := by
  cases Classifier.tell_ok ht
  obtain ⟨moment, disk, saved, hexec, hsaved, hmoment, hbecame⟩ := h.record_saved hnow ho ht
  have hname : (recordOf host fault report fault.message).fileName = _ :=
    fileName_recordOf hmoment
  obtain ⟨hn, hup⟩ := recordName_plain moment ho.slash (host.recordsTaken + 1)
  have husable := h.saved hsaved hn hup
  have hread := (h.manifest_kept hsaved hn hup (recordName_ne _ _ _).1).2
  have hfit := hfits moment hmoment
  rw [← hname] at hsaved hfit
  have hmade : Made (host.recordsTaken + 1) (recordOf host fault report fault.message) :=
    ⟨host, fault, report, _, rfl, rfl, hnow, ho⟩
  have hdisk := hbecame.disk
  have hstored : Stored s loc (host.recordsTaken + 1) (recordOf host fault report fault.message)
      saved := by
    refine ⟨hdisk ▸ husable, hmade, ?_, hdisk ▸ hsaved.self hfit, ?_⟩
    · obtain ⟨log, rfl⟩ := hbecame
      exact Nat.le_refl _
    · rw [hdisk, hsaved.children hfit]
      intro name hmem hdescribes
      by_cases hold : name ∈ host.disk.tree.children loc
      · rw [hfresh name hold] at hdescribes
        cases hdescribes
      · split at hmem
        · exact absurd hmem hold
        · exact List.mem_singleton.mp ((List.mem_append.mp hmem).resolve_left hold)
  -- what comes after the saving may delete other files only
  have htrimmed := hstored.usable.enter_trims fault report
    (recordOf host fault report fault.message) (listable_ofRecord hnow _ _)
  rw [hdisk, hread] at htrimmed
  rw [hexec]
  exact hstored.trimmed htrimmed hspared

/-- **A record that is returned is that of the failure**, and is stored. -/
theorem Usable.returned_stored (h : Usable s host.disk loc) (ho : NamesFile report.operation)
    (hfits : ∀ moment, Moment.ofStamp host.clock.read.1 = .ok moment →
      Fits s (recordName moment report.operation (host.recordsTaken + 1)))
    (hnow : Accepted host.clock.read.1)
    (hfresh : ∀ name ∈ host.disk.tree.children loc,
      describes (idOf (host.recordsTaken + 1)) name = false)
    (hreturns : (s.record fault report).exec host = (.ok r, after))
    (hspared : ¬ s.Drops (rereadEntries (s.listing host fault report)) r.fileName) :
    r = recordOf host fault report fault.message ∧ Stored s loc (host.recordsTaken + 1) r after := by
  cases ht : fault.tell with
  | error trouble =>
    obtain ⟨_, hexec⟩ := record_unmade s ho.slash (.inl ⟨trouble, ht⟩) hnow
    rw [hexec] at hreturns
    cases hreturns
  | ok message =>
    cases Classifier.tell_ok ht
    obtain ⟨_, _, _, hexec, -⟩ := h.record_saved hnow ho ht
    have hr : r = recordOf host fault report fault.message :=
      enter_returns (hexec ▸ hreturns)
    subst hr
    have hstored := h.record_stored ho hfits hnow hfresh ht hspared
    rw [hreturns] at hstored
    exact ⟨rfl, hstored⟩

/-- The hosts after any number of further calls that record failures, none of which prunes the file of
the given name.  How the calls end does not matter. -/
inductive Further (s : ErrorStore) (name : String) (start : Host) : Host → Prop where
  | none : Further s name start start
  | recorded {host : Host} (h : Further s name start host) (fault : Fault) (report : Report)
      (now : Accepted host.clock.read.1) (idLeft : host.recordsTaken + 1 < 16 ^ 16)
      (spared : ¬ s.Drops (rereadEntries (s.listing host fault report)) name) :
      Further s name start ((s.record fault report).exec host).2

/-- A record stays stored. -/
theorem Further.stored (h : Further s r.fileName host later) (hs : Stored s loc n r host) :
    Stored s loc n r later := by
  induction h with
  | none => exact hs
  | recorded _ fault report now idLeft spared ih => exact ih.recorded fault report now idLeft spared

/-- Nothing is pruned as long as the manifest has room for another entry. -/
theorem not_drops_of_few {name : String}
    (hfew : ((s.entriesIn host.disk).length : ℤ) < s.maxErrors) :
    ¬ s.Drops (rereadEntries (s.listing host fault report)) name := by
  rintro ⟨e, he, -⟩
  have hreread := length_rereadEntries (s.listing host fault report)
  have hlisting : (s.listing host fault report).length = (s.entriesIn host.disk).length + 1 := by
    unfold listing
    rw [ManifestEntry.newestFirst, (Sorting.sortFalling_perm _ _ _).length_eq, List.length_append,
      List.length_singleton]
  rw [pruned_eq_nil (by omega)] at he
  cases he

/-- **A stored record reads back unchanged.**  In any store that can be used, whatever its files hold,
recording a failure returns a record exactly if nothing obstructs it.  If the file of that record fits and
the call does not prune it at once, then asking for its id gives the record, and it does so after any
further calls that do not prune it.  What is given is the record as its texts read back, and that is the
record itself, field by field, where the texts hold no single halves of pairs of code units and none of
the characters from U+10D800 to U+10DFFF, which stand for these halves here. -/
theorem stored_record_reads_back (h : Usable s host.disk loc) (ho : NamesFile report.operation)
    (hfits : ∀ moment, Moment.ofStamp host.clock.read.1 = .ok moment →
      Fits s (recordName moment report.operation (host.recordsTaken + 1)))
    (hnow : Accepted host.clock.read.1)
    (hfresh : ∀ name ∈ host.disk.tree.children loc,
      describes (idOf (host.recordsTaken + 1)) name = false) :
    (Accepted host.clock.read.2.read.1 →
      ((∃ r after, (s.record fault report).exec host = (.ok r, after)) ↔
        ¬ Obstructed s host fault report)) ∧
    ∀ r after, (s.record fault report).exec host = (.ok r, after) →
      ¬ s.Drops (rereadEntries (s.listing host fault report)) r.fileName →
      ∀ later, Further s r.fileName after later →
        r.errorId = .str (idOf (host.recordsTaken + 1)) ∧
        (∃ last, (s.get? r.errorId.plainText).exec later = (.ok (some r.reread), last)) ∧
        (report.IsWhole → IsWhole fault.message → r.reread = r) := by
  refine ⟨fun hlater => ?_, fun r after hreturns hspared later hlater => ?_⟩
  · rw [← h.record_fails_iff fault report ho hnow hlater]
    exact Run.FailsAt.not_iff.symm
  · obtain ⟨hr, hstored⟩ := h.returned_stored ho hfits hnow hfresh hreturns hspared
    obtain ⟨last, hget, -⟩ := (hlater.stored hstored).get
    have hid : r.errorId = .str (idOf (host.recordsTaken + 1)) := hstored.made.id
    refine ⟨hid, ⟨last, hid ▸ hget⟩, fun hreport hmessage => ?_⟩
    rw [hr]
    exact reread_recordOf hnow hreport hmessage

/-- A record with quotes, backslashes and control characters in its texts, and with a character beyond
the basic plane, after another call. -/
theorem quoted_record_reads_back :
    let s : ErrorStore := { directory := ⟨.root, []⟩ }
    let fault : Fault := .ofText .valueError "bad \\ \"magic\""
    let report : Report :=
      { operation := "say \"hi\" \\", resultKind := "failure", className := some "",
        toolOutput := some "\t\x01 𝔉oo \x7f\n" }
    ∃ host r after later last, (s.record fault report).exec host = (.ok r, after) ∧
      Further s r.fileName after later ∧ later.recordsTaken = 2 ∧
      (s.get? r.errorId.plainText).exec later = (.ok (some r), last) := by
  intro s fault report
  let start : Host := { disk := {}, clock := .given (.int 1700000000) [] }
  have husable : Usable s start.disk [] := .emptyRoot 200
  have hmoment : Moment.ofStamp (.int 1700000000) = .ok ⟨2023, 11, 14, 22, 13, 20⟩ := rfl
  have hnow : Accepted (.int 1700000000) := accepted_int hmoment
  have hnames : NamesFile report.operation := ⟨by decide, Disk.nameable_of_ascii (by decide)⟩
  have htell : fault.tell = .ok fault.message := rfl
  have hwhole : report.IsWhole := {
    operation := by decide
    resultKind := by decide
    backend := fun t ht => by cases ht
    className := fun t ht => by
      cases ht
      decide
    toolRoot := fun t ht => by cases ht
    toolOutput := fun t ht => by
      cases ht
      decide
    traceback := fun t ht => by cases ht }
  have hfits : ∀ moment, Moment.ofStamp (.int 1700000000) = .ok moment →
      Fits s (recordName moment report.operation 1) := by
    intro moment hm
    cases hmoment.symm.trans hm
    unfold Fits
    decide +kernel
  obtain ⟨host, _, after, -, hclock, htaken, hbooks, hexec, hbecame, hbooks'⟩ :=
    husable.first_record rfl (by decide) hnames hnow hnow (by decide) hfits htell
  have hspared : ¬ s.Drops (rereadEntries (s.listing host fault report))
      (recordOf host fault report fault.message).fileName :=
    not_drops_of_few (hbooks.lists.length_eq ▸ (by decide : ((0 : ℕ) : ℤ) < 200))
  -- another call finds room for its entry
  have hclock' : after.clock = start.clock := hbecame.clock
  have htaken' : after.recordsTaken = 1 := hbecame.recordsTaken
  have hnow' : Accepted after.clock.read.1 := hclock' ▸ hnow
  have hstart : Further s (recordOf host fault report fault.message).fileName after after := .none
  have hfurther := hstart.recorded fault report hnow' (by omega)
    (not_drops_of_few (hbooks'.lists.length_eq ▸ (by decide : ((1 : ℕ) : ℤ) < 200)))
  obtain ⟨-, hfound⟩ := stored_record_reads_back hbooks.usable hnames (hclock ▸ htaken ▸ hfits)
    (hclock ▸ hnow) (htaken ▸ hbooks.id_fresh (by decide))
  obtain ⟨-, ⟨last, hget⟩, hsame⟩ := hfound _ _ hexec hspared _ hfurther
  rw [hsame hwhole (by decide)] at hget
  refine ⟨host, _, after, _, last, hexec, hfurther, ?_, hget⟩
  obtain ⟨filed, -, hfiled, htrimmed⟩ := hbooks'.usable.record_trims fault report hnow'
  rw [htrimmed.taken, hfiled, htaken']

end ErrorStore

end Dissect
