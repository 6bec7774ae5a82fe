/-
# Looking records up

An id is looked up as part of a pattern for file names, and it may be any text.  So looking up is exact
only as far as patterns are (`Usage.looks_up`).  In a directory that was empty when a store was opened
in it, and in which failures of any operations were recorded since, records cleared and stores opened
again:

* looking an id up fails exactly if the pattern is refused (`Refused`);
* otherwise it gives a record whose file the pattern describes, if there is one;
* the record that it gives has the id that was asked for exactly if that is a text of the length of an
  id without a character that means something in a pattern.

All of this rests on one fact about the directory: besides the manifest and the statistics it holds files
of records only, each under the name of its record (`Shelved`).
-/
import Dissect.Proofs.KeptRecords

namespace Dissect

open Files (Disk Location Tree Node)
open Files.Glob (IsOrdinary)

namespace ErrorStore

variable {s : ErrorStore} {loc : Location} {start host after : Host} {fault : Fault}
  {report : Report} {name id : String} {gone : String → Prop} {directory : Path}

/-! ## 1. Directories of records -/

/-- The node is the file of a record of the given name. -/
def IsRecordFile (name : String) (node : Node) : Prop :=
  ∃ n r mode, Made n r ∧ r.fileName = name ∧ node = .file (.bytes (fileBytes (.obj r.members))) mode

/-- The store can be used, and holds files of records besides its books, and nothing else. -/
structure Shelved (s : ErrorStore) (loc : Location) (host : Host) : Prop where
  usable : Usable s host.disk loc
  files : ∀ name node, nodeAt host.disk loc name = some node → ¬ IsBook name → IsRecordFile name node

namespace Shelved

theorem keeping (h : Shelved s loc host) (maxErrors : ℤ) : Shelved { s with maxErrors } loc host :=
  ⟨h.usable.keeping maxErrors, h.files⟩

theorem trimmed (h : Shelved s loc host) (ht : Trimmed s loc IsBook gone host after) :
    Shelved s loc after := by
  refine ⟨ht.usable, fun name node hnode hbook => ?_⟩
  rcases ht.node name hbook with hsame | ⟨-, hnone⟩
  · exact h.files name node (hsame.symm.trans hnode) hbook
  · cases hnone.symm.trans hnode

theorem filed {filed : Host} (h : Shelved s loc host) (hnow : Accepted host.clock.read.1)
    (hf : Filed s loc host fault report filed.disk) : Shelved s loc filed := by
  refine ⟨(hf.usable h.usable).1, ?_⟩
  generalize filed.disk = disk at hf
  cases hf with
  | nothing => exact h.files
  | @saved moment message _ names dated text saved =>
    intro name node hnode hbook
    by_cases hnew : name = recordName moment report.operation (host.recordsTaken + 1)
    · cases saved with
      | written fits mode =>
        rw [hnew, nodeAt, Tree.get?_set_self (by simp)] at hnode
        cases hnode
        exact ⟨_, _, mode, ⟨host, fault, report, message, rfl, rfl, hnow, names⟩,
          (fileName_recordOf dated).trans hnew.symm, rfl⟩
      | refused _ => exact h.files name node hnode hbook
    · exact h.files name node ((saved.others hnew).symm.trans hnode) hbook

/-- **Recording keeps the directory in order**, whatever is recorded and however it ends. -/
theorem recorded (h : Shelved s loc host) (fault : Fault) (report : Report)
    (hnow : Accepted host.clock.read.1) : Shelved s loc ((s.record fault report).exec host).2 := by
  obtain ⟨filed, hfiled, -, htrimmed⟩ := h.usable.record_trims fault report hnow
  exact (h.filed hnow hfiled).trimmed htrimmed

/-- So does clearing. -/
theorem cleared (h : Shelved s loc host) : Shelved s loc (s.clear.exec host).2 := by
  suffices htrims : Trimmed s loc IsBook (fun _ => True) host (s.clear.exec host).2 from
    h.trimmed htrims
  have hquery : (Run.query fun host => Files.Glob.paths host.disk s.directory "*.json").exec host =
      (.ok (((host.disk.tree.children loc).filter (Files.Glob.fits "*.json")).map
        s.directory.child), host) := by
    rw [Run.exec_query, h.usable.paths_json]
  unfold clear
  rw [Run.exec_bind_ok hquery]
  dsimp only
  rw [List.filter_map]
  have hplain : ∀ name ∈ ((host.disk.tree.children loc).filter (Files.Glob.fits "*.json")).filter
      ((fun path : Path => path.name != manifestName && path.name != statsName) ∘ s.directory.child),
      Path.IsPlain name ∧ name ≠ ".." ∧ Fits s name := fun name hm => by
    have hmem := (List.mem_filter.mp (List.mem_filter.mp hm).1).1
    obtain ⟨hn, hup⟩ := h.usable.name_of_mem hmem
    exact ⟨hn, hup, h.usable.fits name hmem⟩
  obtain ⟨count, disk, deleted, hdelete, hleft, hbecame, -⟩ := h.usable.deleteAll_exec hplain
  rw [Run.exec_bind_ok hdelete]
  have hdeleted : Trimmed s loc IsBook (fun _ => True) host deleted :=
    hleft.trimmed h.usable hbecame fun _ _ => trivial
  have hmanifest : Trimmed s loc (· = manifestName) (fun _ => True) deleted _ :=
    hdeleted.usable.save_trims manifestName_plain.1 manifestName_plain.2 (.arr [])
  refine hdeleted.trans (Trimmed.bind (hmanifest.mono (fun _ => .inl) fun _ hg => hg)
    fun _ listed hlisted => ?_)
  have hsaved : (save s.manifestPath (.arr [])).exec deleted = (.ok (), listed) := hlisted
  rw [show s.directory.child manifestName = s.manifestPath from rfl, hsaved] at hmanifest
  have hstats : Trimmed s loc (· = statsName) (fun _ => True) listed _ :=
    hmanifest.usable.save_trims statsName_plain.1 statsName_plain.2 (.obj [])
  refine Trimmed.bind (hstats.mono (fun _ => .inr) fun _ hg => hg) fun _ last hlast => ?_
  rw [show s.directory.child statsName = s.statsPath from rfl, hlast] at hstats
  exact .same hstats.usable rfl rfl

/-- So does opening a store. -/
theorem opened (h : Shelved s loc host) :
    Shelved s loc ((openAt (some s.directory) s.maxErrors).exec host).2 := by
  obtain ⟨middle, disk, after, hexec, hbecame, hmiddle, hdisk⟩ := h.usable.open_exec
  rw [hexec]
  have hkept : ∀ {d d' : Disk} {name : String} {document : Json} {there : Prop} [Decidable there],
      (if there then d' = d else Saved s loc name document d d') → ∀ other, other ≠ name →
        nodeAt d' loc other = nodeAt d loc other := by
    intro d d' name document there _ hs other hne
    split at hs
    · rw [hs]
    · exact hs.others hne
  have husable : Usable s after.disk loc := hbecame.disk ▸ ?_
  · refine ⟨husable, fun name node hnode hbook => h.files name node ?_ hbook⟩
    obtain ⟨hmanifest, hstats⟩ := not_or.mp hbook
    rw [← hnode, hbecame.disk, hkept hdisk name hstats, hkept hmiddle name hmanifest]
  · have hmade : Usable s middle loc := by
      split at hmiddle
      · exact hmiddle ▸ h.usable
      · exact h.usable.saved hmiddle manifestName_plain.1 manifestName_plain.2
    split at hdisk
    · exact hdisk ▸ hmade
    · exact hmade.saved hdisk statsName_plain.1 statsName_plain.2

end Shelved

/-! ## 2. Lookups -/

/-- **What is found under an id.** -/
theorem Shelved.get_cases (h : Shelved s loc host) (id : String) :
    (Refused id ∧ ∃ trouble, (s.get? id).exec host = (.error trouble, host)) ∨
    (¬ Refused id ∧ (∀ name ∈ host.disk.tree.children loc, describes id name = false) ∧
      (s.get? id).exec host = (.ok none, host)) ∨
    (¬ Refused id ∧ ∃ n r after, Made n r ∧ r.fileName ∈ host.disk.tree.children loc ∧
      describes id r.fileName = true ∧ (s.get? id).exec host = (.ok (some r.reread), after)) := by
  by_cases hr : Refused id
  · refine .inl ⟨hr, Files.Glob.invalidPattern, ?_⟩
    have hquery : (Run.query fun host => s.filesOf host.disk id).exec host =
        (.error Files.Glob.invalidPattern, host) := by
      rw [Run.exec_query, filesOf_refused hr]
    unfold get?
    rw [Run.exec_bind_error hquery]
  · refine .inr ?_
    cases hfound : (host.disk.tree.children loc).filter (describes id) with
    | nil =>
      have hmissing : ∀ name ∈ host.disk.tree.children loc, describes id name = false :=
        fun name hname => by simpa using List.filter_eq_nil_iff.mp hfound name hname
      exact .inl ⟨hr, hmissing, h.usable.get_none hr hmissing⟩
    | cons first others =>
      have hfirst : first ∈ (host.disk.tree.children loc).filter (describes id) :=
        hfound ▸ List.mem_cons_self
      obtain ⟨hmem, hdescribes⟩ := List.mem_filter.mp hfirst
      obtain ⟨node, hnode⟩ := Tree.mem_children_iff.mp hmem
      have hbook : ¬ IsBook first := by
        rintro (rfl | rfl)
        · exact absurd (underscore_of_describes hdescribes) (by decide)
        · exact absurd (underscore_of_describes hdescribes) (by decide)
      obtain ⟨n, r, mode, hmade, rfl, rfl⟩ := h.files first node hnode hbook
      obtain ⟨after, hget, -⟩ :=
        h.usable.get_first hr hmade (h.usable.fits _ hmem) hfound hnode
      exact .inr ⟨hr, n, r, after, hmade, hmem, hdescribes, hget⟩

/-- **A record that is found has the id** exactly if the id has the length of one and no character that
means something in a pattern. -/
theorem Made.found_iff {n : ℕ} {r : ErrorRecord} (hr : Made n r)
    (hdescribes : describes id r.fileName = true) :
    r.reread.errorId = .str id ↔ (∀ c ∈ id.toList, IsOrdinary c) ∧ id.toList.length = 23 := by
  have hid : r.reread.errorId = .str (idOf n) := hr.reread_id.trans hr.id
  rw [hid]
  constructor
  · intro heq
    cases heq
    exact ⟨idOf_ordinary n, length_idOf n⟩
  · rintro ⟨hordinary, hlength⟩
    obtain ⟨moment, operation, hname, -⟩ := hr.fileName
    rw [hname] at hdescribes
    have hslash : '/' ∉ id.toList := fun hm => by
      rw [describes_nested hm] at hdescribes
      cases hdescribes
    exact congrArg Json.str (eq_of_describes hslash hordinary hlength hdescribes)

/-! ## 3. Runs -/

/-- The hosts after a store was opened in a directory on a first one, failures of any operations were
recorded, records were cleared and stores were opened again, each of which keeps any number of
records. -/
inductive Usage (directory : Path) (start : Host) : Host → Prop where
  | opened (maxErrors : ℤ) :
      Usage directory start ((openAt (some directory) maxErrors).exec start).2
  | reopened {host : Host} (h : Usage directory start host) (maxErrors : ℤ) :
      Usage directory start ((openAt (some directory) maxErrors).exec host).2
  | recorded {host : Host} (h : Usage directory start host) (maxErrors : ℤ) (fault : Fault)
      (report : Report) (now : Accepted host.clock.read.1) :
      Usage directory start ((record { directory, maxErrors } fault report).exec host).2
  | cleared {host : Host} (h : Usage directory start host) (maxErrors : ℤ) :
      Usage directory start ((clear { directory, maxErrors }).exec host).2

/-- **The directory is in order at any time.** -/
theorem Usage.shelved (h : Usage s.directory start host) (hu : Usable s start.disk loc)
    (hempty : start.disk.tree.children loc = []) : Shelved s loc host := by
  have hstart : Shelved s loc start := by
    refine ⟨hu, fun name node hnode _ => ?_⟩
    have hmem : name ∈ start.disk.tree.children loc := Tree.mem_children_iff.mpr ⟨node, hnode⟩
    rw [hempty] at hmem
    cases hmem
  induction h with
  | opened maxErrors => exact (hstart.keeping maxErrors).opened.keeping s.maxErrors
  | reopened _ maxErrors ih => exact (ih.keeping maxErrors).opened.keeping s.maxErrors
  | recorded _ maxErrors fault report now ih =>
    exact ((ih.keeping maxErrors).recorded fault report now).keeping s.maxErrors
  | cleared _ maxErrors ih => exact (ih.keeping maxErrors).cleared.keeping s.maxErrors

end ErrorStore

end Dissect
