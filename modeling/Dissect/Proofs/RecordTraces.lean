/-
# What recording leaves, however it ends

Recording a failure may fail half-way: at a file that is nested too deeply, at a count that is no number,
at an id that makes a refused pattern.  Whatever happens, and whatever the operation is called, the only
files that recording writes are the manifest, the statistics and the file of the new record, and the
only ones that it deletes are those that belong to entries it prunes (`Usable.record_trims`): every
other file of the store is as it was.

`Trimmed` says this of two hosts, and each of the store's steps is told by what it may write and what it
may delete.
-/
import Dissect.Proofs.Books
import Dissect.Proofs.NestedNames

namespace Dissect

open Files (Disk Location Tree)

namespace ErrorStore

variable {s : ErrorStore} {loc : Location} {host middle after : Host} {fault : Fault}
  {report : Report} {name : String} {written gone : String → Prop} {document : Json}
  {entries : List ManifestEntry} {r : ErrorRecord}

/-! ## 1. Files that are rewritten, and files that go -/

/-- From one host to the other the store stays usable and no id is taken.  The files under some names
may have been written; every other file is as it was, or is one of those that may go and is gone. -/
structure Trimmed (s : ErrorStore) (loc : Location) (written gone : String → Prop)
    (host after : Host) : Prop where
  usable : Usable s after.disk loc
  node : ∀ name, ¬ written name → nodeAt after.disk loc name = nodeAt host.disk loc name ∨
    gone name ∧ nodeAt after.disk loc name = none
  taken : after.recordsTaken = host.recordsTaken

/-- The manifest and the statistics. -/
def IsBook (name : String) : Prop := name = manifestName ∨ name = statsName

/-- One of the entries that are removed from a manifest describes the file. -/
def Drops (s : ErrorStore) (entries : List ManifestEntry) (name : String) : Prop :=
  ∃ e ∈ s.pruned entries, describes e.id.plainText name = true

namespace Trimmed

/-- Nothing was written or deleted. -/
theorem same (h : Usable s host.disk loc) (hdisk : after.disk = host.disk)
    (htaken : after.recordsTaken = host.recordsTaken) : Trimmed s loc written gone host after :=
  ⟨hdisk ▸ h, fun _ _ => .inl (by rw [hdisk]), htaken⟩

theorem logged (h : Usable s host.disk loc) (hlogged : host.OnlyLogged after) :
    Trimmed s loc written gone host after := by
  obtain ⟨log, rfl⟩ := hlogged
  exact same h rfl rfl

theorem mono {written' gone' : String → Prop} (h : Trimmed s loc written gone host after)
    (hw : ∀ name, written name → written' name) (hg : ∀ name, gone name → gone' name) :
    Trimmed s loc written' gone' host after :=
  ⟨h.usable, fun name hno => (h.node name fun hyes => hno (hw name hyes)).imp_right
    (And.imp_left (hg name)), h.taken⟩

theorem trans (h : Trimmed s loc written gone host middle)
    (h' : Trimmed s loc written gone middle after) : Trimmed s loc written gone host after := by
  refine ⟨h'.usable, fun name hno => ?_, h'.taken.trans h.taken⟩
  rcases h'.node name hno with heq | hgone
  · rw [heq]
    exact h.node name hno
  · exact .inr hgone

/-- A step after another one, which may have failed. -/
theorem bind {α β : Type} {step : Run α} {next : α → Run β}
    (hs : Trimmed s loc written gone host (step.exec host).2)
    (hn : ∀ a after, step.exec host = (.ok a, after) →
      Trimmed s loc written gone after ((next a).exec after).2) :
    Trimmed s loc written gone host ((step >>= next).exec host).2 := by
  rw [Run.exec_bind]
  rcases hr : step.exec host with ⟨fault | a, middle⟩
  · rw [hr] at hs
    exact hs
  · rw [hr] at hs
    exact hs.trans (hn a middle hr)

end Trimmed

theorem Saved.trimmed {disk : Disk} (h : Usable s host.disk loc) (hn : Path.IsPlain name)
    (hup : name ≠ "..") (hs : Saved s loc name document host.disk disk)
    (hb : Became host disk after) : Trimmed s loc (· = name) gone host after := by
  obtain ⟨log, rfl⟩ := hb
  exact ⟨h.saved hs hn hup, fun other hne => .inl (hs.others hne), rfl⟩

theorem Left.trimmed {names : List String} {disk : Disk} (h : Usable s host.disk loc)
    (hl : Left s loc names host.disk disk) (hb : Became host disk after)
    (hgone : ∀ name ∈ names, gone name) : Trimmed s loc written gone host after := by
  obtain ⟨log, rfl⟩ := hb
  refine ⟨h.left hl, fun name _ => ?_, rfl⟩
  have hnode := hl.node name
  split at hnode
  · rename_i hm
    exact .inr ⟨hgone name hm, hnode⟩
  · exact .inl hnode

/-! ## 2. Reading, saving and deleting -/

/-- Reading a file changes the log only, even if it fails. -/
theorem fetch_logged (path : Path) (shape : Shape) (host : Host) :
    host.OnlyLogged ((fetch path shape).exec host).2 := by
  unfold fetch
  rw [Run.exec_bind_ok (Run.exec_get host)]
  rcases read host.disk path with fault | _ | document
  · cases hreported : isReported fault with
    | true =>
      simp only [hreported]
      exact Host.OnlyLogged.noted _ _ _
    | false =>
      simp only [hreported]
      exact Host.OnlyLogged.refl host
  · exact Host.OnlyLogged.refl host
  · dsimp only
    cases shape.admits document with
    | true => exact Host.OnlyLogged.refl host
    | false => exact Host.OnlyLogged.noted _ _ _

theorem stats_logged (s : ErrorStore) (host : Host) : host.OnlyLogged (s.stats.exec host).2 := by
  have hfetch := fetch_logged s.statsPath .table host
  unfold stats
  rw [Run.exec_bind]
  rcases h : (fetch s.statsPath .table).exec host with ⟨_ | _, _⟩ <;> (rw [h] at hfetch; exact hfetch)

theorem manifest_logged (s : ErrorStore) (host : Host) :
    host.OnlyLogged (s.manifest.exec host).2 := by
  have hfetch := fetch_logged s.manifestPath .list host
  unfold manifest
  rw [Run.exec_bind]
  rcases h : (fetch s.manifestPath .list).exec host with ⟨_ | _, _⟩ <;>
    (rw [h] at hfetch; exact hfetch)

/-- That a file cannot be written is reported. -/
theorem save_unwritten {path : Path} {e : Files.Errno} (hpath : Disk.pathFault? path.text = none)
    (hwrite : host.disk.write path.text (Text.encode (document.writableText (some 2))) = .error e) :
    (save path document).exec host = (.ok (), host.noted .error
      ("Failed to save " ++ path.name ++ ": " ++ (e.fault path.text).message)) := by
  rw [save_eq, hpath]
  unfold writeDocument
  dsimp only
  rw [Run.exec_bind_ok (Run.exec_get host), hwrite]
  rfl

namespace Usable

variable (h : Usable s host.disk loc)
include h

/-- Saving writes under one name, even if it fails half-way. -/
theorem save_trims (hn : Path.IsPlain name) (hup : name ≠ "..") (document : Json) :
    Trimmed s loc (· = name) gone host ((save (s.directory.child name) document).exec host).2 := by
  rw [save_eq]
  cases Disk.pathFault? (s.directory.child name).text with
  | some fault => exact .same h rfl rfl
  | none =>
    unfold writeDocument
    rw [Run.exec_bind_ok (Run.exec_get host)]
    by_cases hf : Fits s name
    · obtain ⟨mode, hwrite⟩ :=
        h.write_fits hn hup hf (Text.encode (document.writableText (some 2)))
      rw [hwrite]
      dsimp only
      have hset : Trimmed s loc (· = name) gone host { host with disk := { host.disk with
          tree := host.disk.tree.set (loc ++ [name]) (.file (.bytes (Text.encode
            (document.writableText (some 2)))) mode) } } := by
        refine ⟨⟨h.toSettled.set hn hup _ mode, h.nameable, h.manifestFits, h.statsFits, ?_⟩,
          fun other hne => .inl (Tree.get?_set_of_ne (by simpa using hne) _), rfl⟩
        intro other hother
        rw [Tree.children_set] at hother
        split at hother
        · exact h.fits other hother
        · rcases List.mem_append.mp hother with hold | hnew
          · exact h.fits other hold
          · exact List.mem_singleton.mp hnew ▸ hf
      rw [Run.exec_bind_ok (Run.exec_set _ host)]
      cases document.isWritable <;> exact hset
    · rw [h.write_unfit hn hup hf]
      exact .logged h (Host.OnlyLogged.noted _ _ _)

/-- Deleting the files of records stops at an id that is refused. -/
theorem deleteRecords_trims (entries : List ManifestEntry) :
    Trimmed s loc written (fun name => ∃ e ∈ entries, describes e.id.plainText name = true) host
      ((s.deleteRecords entries).exec host).2 := by
  induction entries generalizing host with
  | nil => exact .same h rfl rfl
  | cons e rest ih =>
    by_cases hr : Refused e.id.plainText
    · have hquery : (Run.query fun host => s.filesOf host.disk e.id.plainText).exec host =
          (.error Files.Glob.invalidPattern, host) := by
        rw [Run.exec_query, filesOf_refused hr]
      rw [deleteRecords, Run.exec_bind_error hquery]
      exact .same h rfl rfl
    · obtain ⟨disk, middle, hfirst, hleft, hbecame⟩ :=
        h.toSettled.deleteRecords_cons h.nameable h.fits hr rest
      rw [hfirst]
      have hone : Trimmed s loc written
          (fun name => ∃ e' ∈ e :: rest, describes e'.id.plainText name = true) host middle :=
        hleft.trimmed h hbecame fun name hm =>
          ⟨e, List.mem_cons_self, (List.mem_filter.mp hm).2⟩
      refine hone.trans ((ih hone.usable).mono (fun _ hw => hw) ?_)
      rintro name ⟨e', he', hdescribes⟩
      exact ⟨e', List.mem_cons_of_mem _ he', hdescribes⟩

/-- Where the manifest cannot be read, nothing follows. -/
theorem deep_trims {α : Type} (hdeep : TooDeep host.disk s.manifestPath)
    (next : List ManifestEntry → Run α) :
    Trimmed s loc written gone host ((s.manifest >>= next).exec host).2 := by
  obtain ⟨trouble, hfails⟩ := s.manifest_fails_iff.mpr hdeep
  have hlogged := s.manifest_logged host
  rw [Run.exec_bind]
  rcases hr : s.manifest.exec host with ⟨_ | entries, middle⟩
  · rw [hr] at hlogged
    exact .logged h hlogged
  · rw [hr] at hfails
    cases hfails

/-- Pruning deletes files that belong to the entries it removes, and writes the manifest. -/
theorem prune_trims : Trimmed s loc IsBook (s.Drops (s.entriesIn host.disk)) host
    (s.prune.exec host).2 := by
  by_cases hdeep : TooDeep host.disk s.manifestPath
  · rw [prune_eq]
    exact h.deep_trims hdeep _
  · obtain ⟨log, hstep⟩ := prune_step hdeep
    rw [hstep]
    have husable : Usable s ({ host with log } : Host).disk loc := h
    refine Trimmed.trans (.logged h ⟨log, rfl⟩) ?_
    split
    · exact .same husable rfl rfl
    · have hdelete : Trimmed s loc IsBook (s.Drops (s.entriesIn host.disk)) _ _ :=
        husable.deleteRecords_trims (s.pruned (s.entriesIn host.disk))
      refine hdelete.bind fun _ deleted hok => ?_
      rw [hok] at hdelete
      exact (hdelete.usable.save_trims manifestName_plain.1 manifestName_plain.2 _).mono
        (fun _ => .inl) fun _ hg => hg

/-! ## 3. Recording -/

/-- Counting a failure writes the statistics at most. -/
theorem updateStats_trims (stamp : Json) (operation errorType resultKind : String) :
    Trimmed s loc (· = statsName) gone host
      ((s.updateStats stamp operation errorType resultKind).exec host).2 := by
  rw [updateStats_eq]
  refine Trimmed.bind (.logged h (s.stats_logged host)) fun stats read hread => ?_
  have hlogged := s.stats_logged host
  rw [hread] at hlogged
  have husable : Usable s read.disk loc := hlogged.disk ▸ h
  refine Trimmed.bind (.same husable (by rw [Run.exec_ofExcept]) (by rw [Run.exec_ofExcept]))
    fun counted middle hok => ?_
  rw [Run.exec_ofExcept] at hok
  obtain rfl : read = middle := congrArg Prod.snd hok
  rw [Run.exec_bind_ok (readClock_exec read)]
  generalize hdrawn : ({ read with clock := read.clock.read.2 } : Host) = drawn
  have hsame : Trimmed s loc (· = statsName) gone read drawn :=
    hdrawn ▸ .same husable rfl rfl
  exact hsame.trans (hsame.usable.save_trims statsName_plain.1 statsName_plain.2 _)

/-- Once a record is in the manifest. -/
theorem settle_trims (fault : Fault) (report : Report) (r : ErrorRecord) :
    Trimmed s loc IsBook (s.Drops (s.entriesIn host.disk)) host
      ((s.settle fault report r).exec host).2 := by
  unfold settle
  have hcounted : Trimmed s loc (· = statsName) (s.Drops (s.entriesIn host.disk)) host _ :=
    h.updateStats_trims r.timestamp report.operation fault.name report.resultKind
  refine (hcounted.mono (fun _ => .inr) fun _ hg => hg).bind fun _ middle hok => ?_
  rw [hok] at hcounted
  -- counting has left the manifest, so pruning goes by the same entries
  have hread : s.entriesIn middle.disk = s.entriesIn host.disk := by
    obtain ⟨hn, hup⟩ := manifestName_plain
    have hnode := (hcounted.node manifestName (by decide)).resolve_right ?_
    · unfold entriesIn manifestPath
      rw [h.held_congr hcounted.usable.toSettled hn hup hnode]
    · rintro ⟨⟨e, -, hdescribes⟩, -⟩
      exact absurd (underscore_of_describes hdescribes) (by decide)
  have hpruned := hcounted.usable.prune_trims
  rw [hread] at hpruned
  refine hpruned.bind fun _ last hlast => ?_
  rw [hlast] at hpruned
  rw [Run.exec_bind_ok (Run.exec_note _ _ last)]
  exact .same hpruned.usable rfl rfl

/-- Once a record has been saved, its entry joins those of the manifest. -/
theorem enter_trims (fault : Fault) (report : Report) (r : ErrorRecord)
    (hlistable : Listable (ManifestEntry.ofRecord r fault.message)) :
    Trimmed s loc IsBook (s.Drops (rereadEntries (ManifestEntry.newestFirst
      (s.entriesIn host.disk ++ [ManifestEntry.ofRecord r fault.message])))) host
      ((s.enter fault report r).exec host).2 := by
  unfold enter
  by_cases hdeep : TooDeep host.disk s.manifestPath
  · exact h.deep_trims hdeep _
  · obtain ⟨read, hmanifest, hlogged⟩ := s.manifest_exec hdeep rfl
    rw [Run.exec_bind_ok hmanifest]
    have husable : Usable s read.disk loc := hlogged.disk ▸ h
    have hall : ∀ e ∈ ManifestEntry.newestFirst
        (s.entriesIn host.disk ++ [ManifestEntry.ofRecord r fault.message]), Listable e := by
      refine listable_newestFirst fun e he => ?_
      rcases List.mem_append.mp he with he | he
      · exact listable_of_mem he
      · exact List.mem_singleton.mp he ▸ hlistable
    obtain ⟨disk, listed, hsave, hsaved, hbecame⟩ := husable.saveManifest_exec hall
    obtain ⟨hn, hup⟩ := manifestName_plain
    rw [Run.exec_bind_ok hsave]
    have htrimmed : Trimmed s loc (· = manifestName) (s.Drops (rereadEntries
        (ManifestEntry.newestFirst (s.entriesIn host.disk ++
          [ManifestEntry.ofRecord r fault.message])))) read listed :=
      hsaved.trimmed husable hn hup hbecame
    have hsettled := htrimmed.usable.settle_trims fault report r
    rw [hbecame.disk, (husable.saved_manifest hall hsaved).2] at hsettled
    exact (Trimmed.logged h hlogged).trans
      ((htrimmed.mono (fun _ => .inl) fun _ hg => hg).trans hsettled)

end Usable

/-- What recording a failure does about the file of the record: it is saved under the name of the
record, or nothing is written. -/
inductive Filed (s : ErrorStore) (loc : Location) (host : Host) (fault : Fault) (report : Report) :
    Disk → Prop where
  | saved {moment : Moment} {message : String} {disk : Disk} (names : NamesFile report.operation)
      (dated : Moment.ofStamp host.clock.read.1 = .ok moment) (text : fault.tell = .ok message)
      (saved : Saved s loc (recordName moment report.operation (host.recordsTaken + 1))
        (.obj (recordOf host fault report message).members) host.disk disk) :
      Filed s loc host fault report disk
  | nothing : Filed s loc host fault report host.disk

/-- The step fails and leaves the host, or saves the file of the record, unless there can be none. -/
theorem Usable.saveRecord_cases (h : Usable s host.disk loc) (ha : Accepted host.clock.read.1)
    {message : String} (ht : fault.tell = .ok message) {moment : Moment}
    (hmoment : Moment.ofStamp host.clock.read.1 = .ok moment) :
    (∃ trouble, (save (s.directory.child (recordName moment report.operation
        (host.recordsTaken + 1))) (.obj (recordOf host fault report message).members)).exec
          (drawn host) = (.error trouble, drawn host)) ∨
      ∃ disk after, (save (s.directory.child (recordName moment report.operation
        (host.recordsTaken + 1))) (.obj (recordOf host fault report message).members)).exec
          (drawn host) = (.ok (), after) ∧
        Filed s loc host fault report disk ∧ Became (drawn host) disk after := by
  rw [save_eq]
  cases hfault : Disk.pathFault? (s.directory.child (recordName moment report.operation
      (host.recordsTaken + 1))).text with
  | some trouble => exact .inl ⟨trouble, rfl⟩
  | none =>
    refine .inr ?_
    by_cases hslash : '/' ∈ report.operation.toList
    · have hdrawn : Usable s (drawn host).disk loc := h
      obtain ⟨e, hwrite⟩ := hdrawn.write_nested moment hslash (host.recordsTaken + 1)
        (Text.encode ((Json.obj (recordOf host fault report message).members).writableText (some 2)))
      have hunwritten := save_unwritten hfault hwrite
      rw [save_eq, hfault] at hunwritten
      exact ⟨host.disk, _, hunwritten, .nothing, Became.of_logged (Host.OnlyLogged.noted _ _ _)⟩
    · have hplain := (recordName_plain moment hslash (host.recordsTaken + 1)).1
      have hnames : NamesFile report.operation := by
        refine ⟨hslash, fun c hc => Disk.pathFault?_none_iff.mp hfault c ?_⟩
        exact mem_text_child s.directory hplain (by simp [hc])
      obtain ⟨disk, after, hsave, hsaved, hbecame⟩ :=
        h.saveRecord_exec fault ha hnames message moment
      rw [save_eq, hfault] at hsave
      exact ⟨disk, after, hsave, .saved hnames hmoment ht hsaved, hbecame⟩

theorem Filed.usable {disk : Disk} (hf : Filed s loc host fault report disk)
    (h : Usable s host.disk loc) :
    Usable s disk loc ∧ s.entriesIn disk = s.entriesIn host.disk := by
  cases hf with
  | nothing => exact ⟨h, rfl⟩
  | saved names _ _ saved =>
    obtain ⟨hn, hup⟩ := recordName_plain _ names.slash _
    exact ⟨h.saved saved hn hup, (h.manifest_kept saved hn hup (recordName_ne _ _ _).1).2⟩

/-- **What recording a failure leaves, however it ends.**  The file of the record is saved, or nothing
is; then the manifest and the statistics may be written, and of the other files only those go that
belong to an entry which the call prunes. -/
theorem Usable.record_trims (h : Usable s host.disk loc) (fault : Fault) (report : Report)
    (hnow : Accepted host.clock.read.1) :
    ∃ filed, Filed s loc host fault report filed.disk ∧
      filed.recordsTaken = host.recordsTaken + 1 ∧
      Trimmed s loc IsBook (s.Drops (rereadEntries (s.listing host fault report))) filed
        ((s.record fault report).exec host).2 := by
  obtain ⟨moment, hmoment⟩ := Moment.ofStamp_ok_iff.mpr hnow.dated
  have hdrawn : Usable s (drawn host).disk loc := h
  rw [record_eq]
  cases ht : fault.tell with
  | error trouble =>
    refine ⟨drawn host, .nothing, rfl, ?_⟩
    have hmake : (makeRecord fault report).exec host = (.error trouble, drawn host) := by
      unfold makeRecord
      rw [Run.exec_bind_ok (readClock_exec host), Run.exec_bind_ok (freshId_exec _), ht]
      rfl
    rw [Run.exec_bind_error hmake]
    exact .same hdrawn rfl rfl
  | ok message =>
    have hpath : s.recordPath (recordOf host fault report message).timestamp report.operation
        (recordOf host fault report message).errorId.plainText =
          .ok (s.directory.child (recordName moment report.operation (host.recordsTaken + 1))) :=
      recordPath_eq hmoment _ _
    rw [Run.exec_bind_ok (makeRecord_exec report ht), hpath,
      Run.exec_bind_ok (Run.exec_ofExcept (.ok _) _)]
    rcases h.saveRecord_cases hnow ht hmoment with
      ⟨trouble, hsave⟩ | ⟨disk, saved, hsave, hfiled, hbecame⟩
    · rw [Run.exec_bind_error hsave]
      exact ⟨drawn host, .nothing, rfl, .same hdrawn rfl rfl⟩
    · rw [Run.exec_bind_ok hsave]
      obtain ⟨husable, hentries⟩ := hfiled.usable h
      have hdisk := hbecame.disk
      have hsaved : Usable s saved.disk loc := hdisk ▸ husable
      have htrims := hsaved.enter_trims fault report (recordOf host fault report message)
        (listable_ofRecord hnow _ _)
      rw [hdisk, hentries] at htrims
      cases Classifier.tell_ok ht
      refine ⟨saved, hdisk ▸ hfiled, ?_, htrims⟩
      obtain ⟨log, rfl⟩ := hbecame
      rfl

end ErrorStore

end Dissect
