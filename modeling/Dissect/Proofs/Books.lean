/-
# The books of a store

A store keeps its books in order (`Books`): its directory holds the manifest, the statistics and one
file for each record that the manifest lists, and nothing else; the records that are listed are the
greatest of those that it made since it was last cleared, by time stamp and then by the order in which
they were made; and the statistics tell how many these are.  Each of the store's operations keeps the
books in order, and returns what it is meant to (`Books.record`, `Books.clear`, `Books.reopen`).
-/
import Dissect.Proofs.DamagedStores
import Dissect.Proofs.Listings
import Dissect.Proofs.OpenedStores
import Dissect.Proofs.ProgramRuns
import Dissect.Proofs.Tallies

namespace Dissect

open Files (Disk Location Tree)
open Retention (Greatest rising falling cut)

namespace ErrorStore

variable {s : ErrorStore} {d d' : Disk} {loc : Location} {name : String} {host : Host}
  {fault : Fault} {report : Report} {message : String} {r r' : ErrorRecord} {taken : ℕ}
  {all current listed : List ErrorRecord} {entries : List ManifestEntry}

/-! ## 1. Records with ids of their own -/

/-- Records that the store made with the first so many ids, all different ones. -/
structure Numbered (taken : ℕ) (all : List ErrorRecord) : Prop where
  made : ∀ r ∈ all, ∃ n ≤ taken, Made n r
  distinct : (all.map ErrorRecord.errorId).Nodup

namespace Numbered

theorem mono {more : ℕ} (h : Numbered taken all) (hle : taken ≤ more) : Numbered more all :=
  { h with made := fun r hr => (h.made r hr).imp fun _ hn => ⟨hn.1.trans hle, hn.2⟩ }

theorem eq_of_id (h : Numbered taken all) (hr : r ∈ all) (hr' : r' ∈ all)
    (hid : r.errorId = r'.errorId) : r = r' :=
  List.inj_on_of_nodup_map h.distinct hr hr' hid

/-- The id of a new record is a new one, as long as there are ids left. -/
theorem id_new (h : Numbered taken all) (hr : Made (taken + 1) r) (hleft : taken + 1 < 16 ^ 16) :
    ∀ r' ∈ all, r'.errorId ≠ r.errorId := by
  intro r' hr' heq
  obtain ⟨n, hn, hmade⟩ := h.made r' hr'
  rw [hmade.id, hr.id] at heq
  have hsame := idOf_inj (by omega) hleft (Json.str.inj heq)
  omega

theorem add (h : Numbered taken all) (hr : Made (taken + 1) r) (hleft : taken + 1 < 16 ^ 16) :
    Numbered (taken + 1) (all ++ [r]) := by
  refine ⟨fun r' hr' => ?_, ?_⟩
  · rcases List.mem_append.mp hr' with hr' | hr'
    · exact (h.mono (Nat.le_succ _)).made r' hr'
    · rw [List.mem_singleton.mp hr']
      exact ⟨taken + 1, Nat.le_refl _, hr⟩
  · rw [List.map_append, List.nodup_append]
    refine ⟨h.distinct, List.nodup_singleton _, ?_⟩
    rintro _ hid _ hself rfl
    obtain ⟨r', hr', rfl⟩ := List.mem_map.mp hid
    exact h.id_new hr hleft r' hr' (List.mem_singleton.mp hself)

/-- Records of different ids have files of different names. -/
theorem eq_of_fileName (h : Numbered taken all) (hr : r ∈ all) (hr' : r' ∈ all)
    (hname : r.fileName = r'.fileName) : r = r' := by
  obtain ⟨n, -, hn⟩ := h.made r hr
  obtain ⟨m, -, hm⟩ := h.made r' hr'
  refine h.eq_of_id hr hr' ?_
  have hid : idOf m = idOf n := hm.describes_iff.mp (hname ▸ hn.describes_iff.mpr rfl)
  rw [hn.id, hm.id, hid]

end Numbered

/-! ## 2. The files of records -/

/-- The directory holds the manifest, the statistics, the files of some records, and nothing else. -/
structure Holds (d : Disk) (loc : Location) (listed : List ErrorRecord) : Prop where
  names : (d.tree.children loc).Perm
    (manifestName :: statsName :: listed.map ErrorRecord.fileName)
  files : ∀ r ∈ listed, ∃ mode,
    nodeAt d loc r.fileName = some (.file (.bytes (fileBytes (.obj r.members))) mode)

namespace Holds

variable (h : Holds d loc listed)
include h

theorem mem_iff : name ∈ d.tree.children loc ↔
    name = manifestName ∨ name = statsName ∨ ∃ r ∈ listed, r.fileName = name := by
  rw [h.names.mem_iff, List.mem_cons, List.mem_cons, List.mem_map]

theorem perm {others : List ErrorRecord} (hp : listed.Perm others) : Holds d loc others :=
  ⟨h.names.trans (((hp.map _).cons _).cons _), fun r hr => h.files r (hp.mem_iff.mpr hr)⟩

/-- No name is listed twice. -/
theorem nodup (hn : Numbered taken all) (hsub : listed ⊆ all) (hnodup : listed.Nodup) :
    (d.tree.children loc).Nodup := by
  have hne : ∀ r ∈ listed, r.fileName ≠ manifestName ∧ r.fileName ≠ statsName := fun r hr => by
    obtain ⟨n, -, hmade⟩ := hn.made r (hsub hr)
    exact hmade.fileName_ne
  refine h.names.nodup_iff.mpr (List.nodup_cons.mpr ⟨?_, List.nodup_cons.mpr ⟨?_, ?_⟩⟩)
  · rw [List.mem_cons, List.mem_map, not_or]
    refine ⟨by decide, ?_⟩
    rintro ⟨r, hr, hname⟩
    exact (hne r hr).1 hname
  · rw [List.mem_map]
    rintro ⟨r, hr, hname⟩
    exact (hne r hr).2 hname
  · exact hnodup.map_on fun r hr r' hr' hname => hn.eq_of_fileName (hsub hr) (hsub hr') hname

/-- Saving the manifest or the statistics. -/
theorem saved_book {document : Json} (hn : Numbered taken all) (hsub : listed ⊆ all)
    (hs : Saved s loc name document d d') (hf : Fits s name)
    (hname : name = manifestName ∨ name = statsName) : Holds d' loc listed := by
  refine ⟨?_, fun r hr => ?_⟩
  · have hthere : name ∈ d.tree.children loc := h.mem_iff.mpr (hname.imp_right .inl)
    rw [hs.children hf, if_pos hthere]
    exact h.names
  · obtain ⟨n, -, hmade⟩ := hn.made r (hsub hr)
    have hne : r.fileName ≠ name := by
      rcases hname with rfl | rfl
      · exact hmade.fileName_ne.1
      · exact hmade.fileName_ne.2
    rw [hs.others hne]
    exact h.files r hr

/-- Saving a new record. -/
theorem saved_record (hs : Saved s loc r.fileName (.obj r.members) d d') (hf : Fits s r.fileName)
    (hnew : r.fileName ∉ d.tree.children loc) : Holds d' loc (listed ++ [r]) := by
  refine ⟨?_, fun r' hr' => ?_⟩
  · rw [hs.children hf, if_neg hnew, List.map_append, List.map_singleton, ← List.cons_append,
      ← List.cons_append]
    exact h.names.append_right _
  · rcases List.mem_append.mp hr' with hr' | hr'
    · have hne : r'.fileName ≠ r.fileName := fun heq =>
        hnew (heq ▸ h.mem_iff.mpr (.inr (.inr ⟨r', hr', rfl⟩)))
      rw [hs.others hne]
      exact h.files r' hr'
    · rw [List.mem_singleton.mp hr']
      exact hs.self hf

/-- Deleting the files of some of the records. -/
theorem left {names : List String} {gone stay : List ErrorRecord} (hl : Left s loc names d d')
    (hparts : listed.Perm (gone ++ stay)) (hgone : ∀ r ∈ gone, r.fileName ∈ names)
    (hstay : ∀ r ∈ stay, r.fileName ∉ names) (hbooks : manifestName ∉ names ∧ statsName ∉ names) :
    Holds d' loc stay := by
  have hholds := h.perm hparts
  refine ⟨?_, fun r hr => ?_⟩
  · rw [hl.children]
    refine (hholds.names.filter _).trans (List.Perm.of_eq ?_)
    have hnone : (gone.map ErrorRecord.fileName).filter (fun name => name ∉ names) = [] := by
      refine List.filter_eq_nil_iff.mpr fun name hname => ?_
      obtain ⟨r, hr, rfl⟩ := List.mem_map.mp hname
      simpa using hgone r hr
    have hall : (stay.map ErrorRecord.fileName).filter (fun name => name ∉ names) =
        stay.map ErrorRecord.fileName := by
      refine List.filter_eq_self.mpr fun name hname => ?_
      obtain ⟨r, hr, rfl⟩ := List.mem_map.mp hname
      simpa using hstay r hr
    rw [List.map_append, List.filter_cons_of_pos (by simpa using hbooks.1),
      List.filter_cons_of_pos (by simpa using hbooks.2), List.filter_append, hnone, hall,
      List.nil_append]
  · rw [hl.node, if_neg (hstay r hr)]
    exact hholds.files r (List.mem_append_right _ hr)

end Holds

/-! ## 3. Pruning -/

/-- The records that are left when those beyond the number that the store keeps are removed. -/
def remaining (s : ErrorStore) (listed : List ErrorRecord) : List ErrorRecord :=
  if (listed.length : ℤ) ≤ s.maxErrors then listed
  else cut stampOf ((listed.length : ℤ) - s.maxErrors).toNat listed

/-- **With one more record, those that remain are the greatest.** -/
theorem greatest_remaining (s : ErrorStore)
    (h : Greatest stampOf s.maxErrors.toNat current listed) (hr : r ∉ current) :
    Greatest stampOf s.maxErrors.toNat (current ++ [r])
      (s.remaining (falling stampOf (listed ++ [r]))) := by
  have hlength : (falling stampOf (listed ++ [r])).length = listed.length + 1 := by
    rw [(Retention.falling_perm _ _).length_eq, List.length_append, List.length_singleton]
  unfold remaining
  rw [hlength]
  split
  · exact h.added_few hr (by omega)
  · exact h.added_many hr (by omega)

/-- Pruning deletes no file whose name has no underscore. -/
theorem not_mem_pruned {names : List String}
    (hgone : ∀ name, name ∈ names ↔ name ∈ d.tree.children loc ∧
      ∃ e ∈ s.pruned entries, describes e.id.plainText name = true)
    (hname : '_' ∉ name.toList) : name ∉ names := by
  intro hmem
  obtain ⟨-, e, -, hdescribes⟩ := (hgone name).mp hmem
  exact hname (underscore_of_describes hdescribes)

/-- Pruning leaves the file of the statistics. -/
theorem Pruned.stats_node (hp : Pruned s loc entries d d') :
    nodeAt d' loc statsName = nodeAt d loc statsName := by
  cases hp with
  | few _ => rfl
  | many _ left gone saved =>
    rw [saved.others (by decide), left.node, if_neg (not_mem_pruned gone (by decide))]

/-- Pruning leaves the statistics. -/
theorem Usable.stats_pruned (h : Usable s d loc) (hp : Pruned s loc entries d d') :
    (TooDeep d' s.statsPath ↔ TooDeep d s.statsPath) ∧ s.statsIn d' = s.statsIn d := by
  obtain ⟨hplain, hup⟩ := statsName_plain
  have hsettled := (hp.usable h).toSettled
  refine ⟨h.tooDeep_congr hsettled hplain hup hp.stats_node, ?_⟩
  unfold statsIn statsPath
  rw [h.held_congr hsettled hplain hup hp.stats_node]

/-- What pruning leaves in the manifest of a store that lists records. -/
theorem Usable.pruned_lists (h : Usable s d loc) (hdeep : ¬ TooDeep d s.manifestPath)
    (hlists : Lists listed (s.entriesIn d)) (hp : Pruned s loc (s.entriesIn d) d d') :
    ¬ TooDeep d' s.manifestPath ∧ Lists (s.remaining listed) (s.entriesIn d') := by
  have hlength : listed.length = (s.entriesIn d).length := hlists.length_eq
  cases hp with
  | few few =>
    rw [remaining, if_pos (by rw [hlength]; exact few)]
    exact ⟨hdeep, hlists⟩
  | many many left _ saved =>
    rw [remaining, if_neg (by rw [hlength]; exact Int.not_le.mpr many), hlength]
    obtain ⟨hdeep', hentries⟩ := (h.left left).saved_manifest
      (fun e he => listable_of_mem (kept_subset s _ he)) saved
    exact ⟨hdeep', hentries ▸ (hlists.kept s).reread⟩

/-- Pruning deletes the file of a record exactly if it is one of the oldest. -/
theorem Holds.pruned_iff {names : List String} (h : Holds d loc listed) (hn : Numbered taken all)
    (hsub : listed ⊆ all) (hlists : Lists listed entries)
    (hgone : ∀ name, name ∈ names ↔ name ∈ d.tree.children loc ∧
      ∃ e ∈ s.pruned entries, describes e.id.plainText name = true) (hr : r ∈ listed) :
    r.fileName ∈ names ↔ r ∈ (rising stampOf listed).take (s.excess entries) := by
  obtain ⟨n, -, hmade⟩ := hn.made r (hsub hr)
  have hdropped := hlists.pruned s
  rw [hgone]
  constructor
  · rintro ⟨-, e, he, hdescribes⟩
    obtain ⟨r', hr', hshown⟩ := hdropped.mem_right he
    obtain ⟨m, hm⟩ := hshown.made
    rw [hshown.id, hm.id] at hdescribes
    have hid : r.errorId = r'.errorId := by
      rw [hmade.id, hm.id]
      exact congrArg _ (hmade.describes_iff.mp hdescribes)
    have hlisted : r' ∈ listed := (Retention.rising_perm _ _).subset (List.mem_of_mem_take hr')
    rw [hn.eq_of_id (hsub hr) (hsub hlisted) hid]
    exact hr'
  · intro hdrop
    obtain ⟨e, he, hshown⟩ := hdropped.mem_left hdrop
    refine ⟨h.mem_iff.mpr (.inr (.inr ⟨r, hr, rfl⟩)), e, he, ?_⟩
    rw [hshown.id, hmade.id]
    exact hmade.describes_iff.mpr rfl

/-- Without the files of the oldest records, those of the others are left. -/
theorem Holds.cut {names : List String} {k : ℕ} (h : Holds d loc listed)
    (hl : Left s loc names d d') (hnodup : listed.Nodup)
    (hgone : ∀ r ∈ listed, r.fileName ∈ names ↔ r ∈ (rising stampOf listed).take k)
    (hbooks : manifestName ∉ names ∧ statsName ∉ names) :
    Holds d' loc (Retention.cut stampOf k listed) := by
  have hrising := Retention.rising_perm stampOf listed
  have hparts : listed.Perm
      ((rising stampOf listed).take k ++ (rising stampOf listed).drop k) := by
    rw [List.take_append_drop]
    exact hrising.symm
  have hstay : ∀ r ∈ (rising stampOf listed).drop k, r.fileName ∉ names := by
    intro r hr hmem
    have hdrop := (hgone r (hrising.subset (List.mem_of_mem_drop hr))).mp hmem
    have hapart : (rising stampOf listed).Nodup := hrising.nodup_iff.mpr hnodup
    rw [← List.take_append_drop k (rising stampOf listed), List.nodup_append] at hapart
    exact hapart.2.2 r hdrop r hr rfl
  have hleft := h.left hl hparts
    (fun r hr => (hgone r (hrising.subset (List.mem_of_mem_take hr))).mpr hr) hstay hbooks
  exact hleft.perm (Retention.falling_perm _ _).symm

/-- What pruning leaves of the files of a store that lists the records whose files it holds. -/
theorem Usable.pruned_holds (h : Usable s d loc) (hn : Numbered taken all) (hsub : listed ⊆ all)
    (hnodup : listed.Nodup) (hholds : Holds d loc listed)
    (hlists : Lists listed (s.entriesIn d)) (hp : Pruned s loc (s.entriesIn d) d d') :
    Holds d' loc (s.remaining listed) := by
  have hlength : listed.length = (s.entriesIn d).length := hlists.length_eq
  cases hp with
  | few few =>
    rw [remaining, if_pos (by rw [hlength]; exact few)]
    exact hholds
  | many many left gone saved =>
    rw [remaining, if_neg (by rw [hlength]; exact Int.not_le.mpr many), hlength]
    have hcut := hholds.cut left hnodup (fun r hr => hholds.pruned_iff hn hsub hlists gone hr)
      ⟨not_mem_pruned gone (by decide), not_mem_pruned gone (by decide)⟩
    exact hcut.saved_book hn (fun r hr => hsub (Retention.cut_subset _ _ _ hr)) saved
      h.manifestFits (.inl rfl)

/-! ## 4. The books -/

/-- **The books of a store are in order.**  Of all the records that it made, with ids up to some number,
the current ones are those since it was last cleared, and the manifest lists the greatest of them. -/
structure Books (s : ErrorStore) (d : Disk) (loc : Location) (taken : ℕ)
    (all current listed : List ErrorRecord) : Prop where
  usable : Usable s d loc
  numbered : Numbered taken all
  subset : current ⊆ all
  few : current.length ≤ taken
  holds : Holds d loc listed
  manifest : ¬ TooDeep d s.manifestPath
  lists : Lists listed (s.entriesIn d)
  greatest : Greatest stampOf s.maxErrors.toNat current listed
  stats : ¬ TooDeep d s.statsPath
  tally : Tally current.length current.length (s.statsIn d)

/-- The characters of a name stand in the path that it makes. -/
theorem mem_text_child (p : Path) (hn : Path.IsPlain name) {c : Char} (hc : c ∈ name.toList) :
    c ∈ (p.child name).text.toList := by
  by_cases hparts : p.parts = []
  · rw [Path.child_plain p hn, Path.text_of_parts (by simp), hparts]
    exact String.toList_append ▸ List.mem_append_right _ hc
  · rw [Files.Disk.text_child hparts hn, String.toList_append]
    exact List.mem_append_right _ hc

/-- Recording a failure makes no record, and leaves the store as it was, if the failure has no text or
the name of the operation cannot stand in a path. -/
theorem record_unmade (s : ErrorStore) (ho : '/' ∉ report.operation.toList)
    (hno : (∃ trouble, fault.tell = .error trouble) ∨ ¬ Disk.Nameable report.operation)
    (hnow : Accepted host.clock.read.1) :
    ∃ trouble, (s.record fault report).exec host = (.error trouble, drawn host) := by
  cases ht : fault.tell with
  | error trouble =>
    refine ⟨trouble, ?_⟩
    rw [record_eq]
    refine Run.exec_bind_error ?_
    unfold makeRecord
    rw [Run.exec_bind_ok (readClock_exec host), Run.exec_bind_ok (freshId_exec _), ht]
    rfl
  | ok message =>
    have hunnameable := hno.resolve_left fun ⟨_, hfails⟩ => by
      rw [ht] at hfails
      cases hfails
    obtain ⟨moment, hmoment⟩ := Moment.ofStamp_ok_iff.mpr hnow.dated
    obtain ⟨hplain, -⟩ := recordName_plain moment ho (host.recordsTaken + 1)
    have hpath : s.recordPath (recordOf host fault report message).timestamp report.operation
        (recordOf host fault report message).errorId.plainText =
          .ok (s.directory.child (recordName moment report.operation (host.recordsTaken + 1))) :=
      recordPath_eq hmoment _ _
    cases hfault : Disk.pathFault? (s.directory.child
        (recordName moment report.operation (host.recordsTaken + 1))).text with
    | none =>
      refine absurd (fun c hc => ?_) hunnameable
      refine Disk.pathFault?_none_iff.mp hfault c ?_
      exact mem_text_child s.directory hplain (by simp [hc])
    | some trouble =>
      refine ⟨trouble, ?_⟩
      rw [record_eq, Run.exec_bind_ok (makeRecord_exec report ht), hpath,
        Run.exec_bind_ok (Run.exec_ofExcept (.ok _) _)]
      refine Run.exec_bind_error ?_
      unfold save
      rw [hfault]
      rfl

namespace Books

variable (h : Books s d loc taken all current listed)
include h

theorem listed_subset : listed ⊆ all := fun _ hr => h.subset (h.greatest.subset hr)

theorem mono {more : ℕ} (hle : taken ≤ more) : Books s d loc more all current listed :=
  { h with numbered := h.numbered.mono hle, few := h.few.trans hle }

/-- No record that was made before has the file name of a new one. -/
theorem fileName_new (hr : Made (taken + 1) r) (hleft : taken + 1 < 16 ^ 16) :
    r.fileName ∉ d.tree.children loc := by
  rw [h.holds.mem_iff]
  rintro (hname | hname | ⟨r', hr', hname⟩)
  · exact hr.fileName_ne.1 hname
  · exact hr.fileName_ne.2 hname
  · have hall : r' ∈ all ++ [r] := List.mem_append_left _ (h.listed_subset hr')
    have hself : r ∈ all ++ [r] := List.mem_append_right _ List.mem_cons_self
    have heq := (h.numbered.add hr hleft).eq_of_fileName hall hself hname
    exact h.numbered.id_new hr hleft r' (h.listed_subset hr') (heq ▸ rfl)

end Books

/-- The manifest with a new record lists it with the others. -/
theorem Lists.listing (h : Lists listed (s.entriesIn host.disk)) (ho : NamesFile report.operation)
    (hnow : Accepted host.clock.read.1) (ht : fault.tell = .ok message) :
    Made (host.recordsTaken + 1) (recordOf host fault report message) ∧
      Lists (falling stampOf (listed ++ [recordOf host fault report message]))
        (s.listing host fault report) := by
  have hmade : Made (host.recordsTaken + 1) (recordOf host fault report message) :=
    ⟨host, fault, report, message, rfl, rfl, hnow, ho⟩
  refine ⟨hmade, ?_⟩
  cases Classifier.tell_ok ht
  exact (h.append ⟨⟨_, hmade⟩, .made⟩).newestFirst

/-- Nothing obstructs recording where the manifest lists records and the statistics have only counted
failures. -/
theorem Lists.not_obstructed {n : ℕ} (h : Lists listed (s.entriesIn host.disk))
    (hmanifest : ¬ TooDeep host.disk s.manifestPath) (hstats : ¬ TooDeep host.disk s.statsPath)
    (htally : Tally n n (s.statsIn host.disk)) (hn : n < 16 ^ 16) (ho : NamesFile report.operation)
    (hnow : Accepted host.clock.read.1) (ht : fault.tell = .ok message) :
    ¬ Obstructed s host fault report := by
  obtain ⟨-, hlisting⟩ := h.listing ho hnow ht
  rintro (⟨_, hno⟩ | hdeep | hdeep | hcounts | ⟨e, he, hrefused⟩)
  · rw [ht] at hno
    cases hno
  · exact hmanifest hdeep
  · exact hstats hdeep
  · exact hcounts (htally.counts_failure hn _ _ _)
  · obtain ⟨r, -, hshown⟩ := (hlisting.reread.pruned s).mem_right he
    obtain ⟨n, hn⟩ := hshown.made
    rw [hshown.id, hn.id] at hrefused
    exact not_refused_idOf n hrefused

/-- Once a new record is saved and entered, its file is there with those of the others. -/
theorem Books.entered (h : Books s host.disk loc host.recordsTaken all current listed)
    (he : Entered s loc host fault report message d') (ho : NamesFile report.operation)
    (hmade : Made (host.recordsTaken + 1) (recordOf host fault report message))
    (hleft : host.recordsTaken + 1 < 16 ^ 16)
    (hfits : ∀ moment, Moment.ofStamp host.clock.read.1 = .ok moment →
      Fits s (recordName moment report.operation (host.recordsTaken + 1))) :
    Usable s d' loc ∧ Holds d' loc (listed ++ [recordOf host fault report message]) := by
  refine ⟨he.usable h.usable ho, ?_⟩
  obtain ⟨hmoment, hrecord, hmanifest⟩ := he
  have hname : (recordOf host fault report message).fileName = _ := fileName_recordOf hmoment
  have hfit := hfits _ hmoment
  rw [← hname] at hrecord hfit
  have hholds := h.holds.saved_record hrecord hfit (h.fileName_new hmade hleft)
  exact hholds.saved_book (h.numbered.add hmade hleft) (Retention.subset_added h.listed_subset)
    hmanifest h.usable.manifestFits (.inl rfl)

/-- **Recording keeps the books in order**: nothing obstructs it, and it returns the record. -/
theorem Books.record (h : Books s host.disk loc host.recordsTaken all current listed)
    (ho : NamesFile report.operation) (hnow : Accepted host.clock.read.1)
    (hlater : Accepted host.clock.read.2.read.1) (hleft : host.recordsTaken + 1 < 16 ^ 16)
    (hfits : ∀ moment, Moment.ofStamp host.clock.read.1 = .ok moment →
      Fits s (recordName moment report.operation (host.recordsTaken + 1)))
    (ht : fault.tell = .ok message) :
    ∃ listed' disk after,
      (s.record fault report).exec host = (.ok (recordOf host fault report message), after) ∧
      Became { drawn host with clock := host.clock.read.2.read.2 } disk after ∧
      Books s disk loc (host.recordsTaken + 1)
        (all ++ [recordOf host fault report message])
        (current ++ [recordOf host fault report message]) listed' := by
  obtain ⟨hmade, hlisting⟩ := h.lists.listing ho hnow ht
  have hcurrent : current.length < 16 ^ 16 := Nat.lt_of_le_of_lt h.few (Nat.lt_of_succ_lt hleft)
  have hclear := h.lists.not_obstructed h.manifest h.stats h.tally hcurrent ho hnow ht
  obtain ⟨message', entered, stats, counted, disk, after, ht', hexec, hentered, hall, hstats,
    hentries, hpruned, hbecame⟩ := h.usable.record_exec ho hnow hlater hclear
  cases ht.symm.trans ht'
  have hnumbered := h.numbered.add hmade hleft
  have hnew : recordOf host fault report message ∉ current := fun hmem =>
    h.numbered.id_new hmade hleft _ (h.subset hmem) rfl
  obtain ⟨husable, hholds⟩ := h.entered hentered ho hmade hleft hfits
  have hsub : listed ++ [recordOf host fault report message] ⊆
      all ++ [recordOf host fault report message] :=
    Retention.subset_added h.listed_subset
  have hfalling := Retention.falling_perm stampOf (listed ++ [recordOf host fault report message])
  have hcounted : Usable s counted loc :=
    husable.saved hstats statsName_plain.1 statsName_plain.2
  obtain ⟨hread, -⟩ := hentered.manifest_read h.usable ho hnow
  have hdeep : ¬ TooDeep counted s.manifestPath := by
    rw [(husable.manifest_kept hstats statsName_plain.1 statsName_plain.2 (by decide)).1]
    exact hread
  have htally := h.tally.counted (Nat.lt_of_le_of_lt (Nat.succ_le_succ h.few) hleft) hnow hlater hall
  obtain ⟨hstatsRead, hstatsIn⟩ := husable.saved_stats htally hstats
  have hlisted : Lists _ (s.entriesIn counted) := hentries ▸ hlisting.reread
  have hprune : Pruned s loc (s.entriesIn counted) counted disk := hentries ▸ hpruned
  obtain ⟨hmanifest, hlists⟩ := hcounted.pruned_lists hdeep hlisted hprune
  have hremaining := hcounted.pruned_holds hnumbered (fun r hr => hsub (hfalling.subset hr))
    (hfalling.nodup_iff.mpr (h.greatest.nodup_added hnew))
    ((hholds.saved_book hnumbered hsub hstats h.usable.statsFits (.inr rfl)).perm hfalling.symm)
    hlisted hprune
  obtain ⟨hdeepSame, hstatsSame⟩ := hcounted.stats_pruned hprune
  have hdisk : Usable s disk loc := hpruned.usable hcounted
  refine ⟨_, disk, after, hexec, hbecame, {
    usable := hdisk
    numbered := hnumbered
    subset := Retention.subset_added h.subset
    few := ?_
    holds := hremaining
    manifest := hmanifest
    lists := hlists
    greatest := greatest_remaining s h.greatest hnew
    stats := ?_
    tally := ?_ }⟩
  · rw [List.length_append, List.length_singleton]
    exact Nat.succ_le_succ h.few
  · rw [hdeepSame]
    exact hstatsRead
  · rw [hstatsSame, hstatsIn, List.length_append, List.length_singleton]
    exact htally.reread.2

/-- The books of a store that has just been made or cleared. -/
theorem Usable.fresh_books (h : Usable s d loc) (hn : Numbered taken all)
    (hnames : (d.tree.children loc).Perm [manifestName, statsName])
    (hmanifest : ¬ TooDeep d s.manifestPath ∧ s.entriesIn d = [])
    (hstats : ¬ TooDeep d s.statsPath ∧ s.statsIn d = []) :
    Books s d loc taken all [] [] where
  usable := h
  numbered := hn
  subset := List.nil_subset _
  few := Nat.zero_le _
  holds := ⟨hnames, fun _ hr => by cases hr⟩
  manifest := hmanifest.1
  lists := hmanifest.2 ▸ .nil
  greatest := .nil _ _
  stats := hstats.1
  tally := hstats.2 ▸ .empty

/-- The manifest and the statistics that a store begins with are read again as empty. -/
theorem Usable.saved_empty {middle : Disk} (h : Usable s d loc)
    (hm : Saved s loc manifestName (.arr []) d middle)
    (hs : Saved s loc statsName (.obj []) middle d') :
    Usable s d' loc ∧ (¬ TooDeep d' s.manifestPath ∧ s.entriesIn d' = []) ∧
      ¬ TooDeep d' s.statsPath ∧ s.statsIn d' = [] := by
  have hmiddle := h.saved hm manifestName_plain.1 manifestName_plain.2
  obtain ⟨hdeep, hentries⟩ := h.saved_manifest (fun _ he => absurd he List.not_mem_nil) hm
  obtain ⟨hsame, hkept⟩ :=
    hmiddle.manifest_kept hs statsName_plain.1 statsName_plain.2 (by decide)
  refine ⟨hmiddle.saved hs statsName_plain.1 statsName_plain.2, ⟨?_, ?_⟩,
    hmiddle.saved_stats .empty hs⟩
  · rw [hsame]
    exact hdeep
  · rw [hkept, hentries]
    rfl

/-- Opening a store in an empty directory makes the manifest and the statistics. -/
theorem Usable.open_new (h : Usable s host.disk loc)
    (hempty : host.disk.tree.children loc = []) :
    ∃ middle disk after, (openAt (some s.directory) s.maxErrors).exec host = (.ok s, after) ∧
      Became host disk after ∧ Saved s loc manifestName (.arr []) host.disk middle ∧
      Saved s loc statsName (.obj []) middle disk ∧
      disk.tree.children loc = [manifestName, statsName] := by
  obtain ⟨middle, disk, after, hexec, hbecame, hmiddle, hdisk⟩ := h.open_exec
  rw [hempty, if_neg List.not_mem_nil] at hmiddle
  have hlisted := hmiddle.children h.manifestFits
  rw [hempty, if_neg List.not_mem_nil] at hlisted
  have hnew : statsName ∉ middle.tree.children loc := by
    rw [hlisted]
    decide
  rw [if_neg hnew] at hdisk
  refine ⟨middle, disk, after, hexec, hbecame, hmiddle, hdisk, ?_⟩
  rw [hdisk.children h.statsFits, if_neg hnew, hlisted]
  rfl

/-- **Opening a store in an empty directory** begins its books. -/
theorem Usable.open_empty (h : Usable s host.disk loc)
    (hempty : host.disk.tree.children loc = []) :
    ∃ disk after, (openAt (some s.directory) s.maxErrors).exec host = (.ok s, after) ∧
      Became host disk after ∧ Books s disk loc host.recordsTaken [] [] [] := by
  obtain ⟨middle, disk, after, hexec, hbecame, hmiddle, hdisk, hnames⟩ := h.open_new hempty
  obtain ⟨husable, hmanifest, hstats⟩ := h.saved_empty hmiddle hdisk
  exact ⟨disk, after, hexec, hbecame, husable.fresh_books ⟨by simp, by simp⟩
    (List.Perm.of_eq hnames) hmanifest hstats⟩

/-- The pattern for an id that has not been given yet describes none of the store's files. -/
theorem Books.id_fresh (h : Books s d loc taken all current listed) (hleft : taken + 1 < 16 ^ 16) :
    ∀ name ∈ d.tree.children loc, describes (idOf (taken + 1)) name = false := by
  intro name hname
  rw [Bool.eq_false_iff]
  intro hdescribes
  rcases h.holds.mem_iff.mp hname with rfl | rfl | ⟨r, hr, rfl⟩
  · exact absurd (underscore_of_describes hdescribes) (by decide)
  · exact absurd (underscore_of_describes hdescribes) (by decide)
  · obtain ⟨n, hn, hmade⟩ := h.numbered.made r (h.listed_subset hr)
    have hsame := idOf_inj (by omega) hleft (hmade.describes_iff.mp hdescribes)
    omega

/-- **A failure that is recorded in a new store** is listed there, and nothing else is. -/
theorem Usable.first_record {start : Host} (h : Usable s start.disk loc)
    (hempty : start.disk.tree.children loc = []) (hroom : 0 < s.maxErrors)
    (ho : NamesFile report.operation) (hnow : Accepted start.clock.read.1)
    (hlater : Accepted start.clock.read.2.read.1) (hleft : start.recordsTaken + 1 < 16 ^ 16)
    (hfits : ∀ moment, Moment.ofStamp start.clock.read.1 = .ok moment →
      Fits s (recordName moment report.operation (start.recordsTaken + 1)))
    (ht : fault.tell = .ok message) :
    ∃ opened disk after, (openAt (some s.directory) s.maxErrors).exec start = (.ok s, opened) ∧
      opened.clock = start.clock ∧ opened.recordsTaken = start.recordsTaken ∧
      Books s opened.disk loc start.recordsTaken [] [] [] ∧
      (s.record fault report).exec opened =
        (.ok (recordOf opened fault report message), after) ∧
      Became { drawn start with clock := start.clock.read.2.read.2 } disk after ∧
      Books s after.disk loc (start.recordsTaken + 1) [recordOf opened fault report message]
        [recordOf opened fault report message] [recordOf opened fault report message] := by
  obtain ⟨disk, opened, hopen, ⟨log, rfl⟩, hbooks⟩ := h.open_empty hempty
  have hopened : Books s ({ start with disk, log } : Host).disk loc start.recordsTaken [] [] [] :=
    hbooks
  obtain ⟨listed, disk', after, hexec, ⟨log', rfl⟩, hbooks'⟩ :=
    hopened.record ho hnow hlater hleft hfits ht
  have hlisted : listed = [recordOf { start with disk, log } fault report message] := by
    have hlength := hbooks'.greatest.length
    have hsubset := hbooks'.greatest.subset
    obtain ⟨r, rfl⟩ := List.length_eq_one_iff.mp (hlength.trans (by simp; omega))
    rw [List.mem_singleton.mp (hsubset List.mem_cons_self)]
  exact ⟨_, disk', _, hopen, rfl, rfl, hbooks, hexec, ⟨log', rfl⟩, hlisted ▸ hbooks'⟩

/-- **Opening a store again** leaves it as it is. -/
theorem Books.reopen (h : Books s host.disk loc taken all current listed) :
    ∃ after, (openAt (some s.directory) s.maxErrors).exec host = (.ok s, after) ∧
      Became host host.disk after := by
  obtain ⟨middle, disk, after, hexec, hbecame, hmiddle, hdisk⟩ := h.usable.open_exec
  rw [if_pos (h.holds.mem_iff.mpr (.inl rfl))] at hmiddle
  rw [hmiddle, if_pos (h.holds.mem_iff.mpr (.inr (.inl rfl)))] at hdisk
  exact ⟨after, hexec, hdisk ▸ hbecame⟩

/-- The names of the store's record files are those of the files of the records that it lists. -/
theorem Books.recordNames_perm (h : Books s d loc taken all current listed) :
    (recordNames (d.tree.children loc)).Perm (listed.map ErrorRecord.fileName) := by
  unfold recordNames
  refine (h.holds.names.filter _).trans (List.Perm.of_eq ?_)
  rw [List.filter_cons_of_neg (by simp), List.filter_cons_of_neg (by simp),
    List.filter_eq_self]
  intro name hname
  obtain ⟨r, hr, rfl⟩ := List.mem_map.mp hname
  obtain ⟨n, -, hmade⟩ := h.numbered.made r (h.listed_subset hr)
  obtain ⟨hmanifest, hstats⟩ := hmade.fileName_ne
  simp [hmade.fits_json, hmanifest, hstats]

/-- **Clearing keeps the books in order**, and returns how many records were listed. -/
theorem Books.clear (h : Books s host.disk loc taken all current listed) :
    ∃ disk after, s.clear.exec host = (.ok listed.length, after) ∧ Became host disk after ∧
      Books s disk loc taken all [] [] := by
  have hnodup := h.holds.nodup h.numbered h.listed_subset h.greatest.nodup
  obtain ⟨cleared, emptied, disk, after, hexec, hbecame, hleft, hmanifest, hstats⟩ :=
    h.usable.clear_exec hnodup
  have hnames := h.recordNames_perm
  have hcleared := h.usable.left hleft
  obtain ⟨husable, hread, hnone⟩ := hcleared.saved_empty hmanifest hstats
  have hholds : Holds cleared loc [] := by
    refine h.holds.left hleft (List.Perm.of_eq (List.append_nil listed).symm) (fun r hr => ?_)
      (by simp) ⟨by simp [recordNames], by simp [recordNames]⟩
    rw [hnames.mem_iff]
    exact List.mem_map_of_mem hr
  have hbooks := (hholds.saved_book h.numbered (List.nil_subset _) hmanifest h.usable.manifestFits
    (.inl rfl)).saved_book h.numbered (List.nil_subset _) hstats h.usable.statsFits (.inr rfl)
  refine ⟨disk, after, ?_, hbecame, husable.fresh_books h.numbered hbooks.names hread hnone⟩
  rw [hexec, hnames.length_eq, List.length_map]

end ErrorStore

end Dissect
