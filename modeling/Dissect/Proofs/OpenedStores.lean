/-
# Opening and clearing a store

Opening a store in a directory that is there makes the manifest and the statistics, where they are
missing, and nothing else (`Usable.open_exec`).  Clearing deletes the files of all records and leaves
an empty manifest and empty statistics (`Usable.clear_exec`).
-/
import Dissect.Proofs.RecordNames

namespace Dissect

open Files (Disk Location Tree Errno)

/-! ## 1. Directories that are there -/

namespace Files.Disk

variable {d : Disk} {loc : Location} {path : String}

/-- A directory is not made where something is. -/
theorem makeDirectory_there {node : Node} (hl : d.locate true path = .ok loc)
    (hn : d.tree.get? loc = some node) : d.makeDirectory path = .error .exists := by
  have hplace : ∃ place, d.locate false path = .ok place ∧ (d.tree.get? place).isSome = true := by
    unfold locate at hl ⊢
    split at hl
    · cases hl
    rename_i hempty
    split at hl
    · cases hl
    rename_i hlong
    rw [if_neg hempty, if_neg hlong]
    obtain ⟨place, hfollow, hwhere⟩ := follow_false hl
    refine ⟨place, hfollow, ?_⟩
    rcases hwhere with rfl | ⟨target, hlink⟩
    · rw [hn]
      rfl
    · rw [hlink]
      rfl
  obtain ⟨place, hplace, hsome⟩ := hplace
  obtain ⟨there, hthere⟩ := Option.isSome_iff_exists.mp hsome
  simp [makeDirectory, hplace, hthere, bind, Except.bind]

theorem chain_eq (path : Path) : ∃ above, chain path = path :: above := by
  unfold chain
  rw [List.range_succ, List.reverse_append, List.reverse_singleton, List.map_append,
    List.map_singleton, List.take_length]
  exact ⟨_, rfl⟩

end Files.Disk

namespace ErrorStore

open Files.Disk (Nameable)

variable {s : ErrorStore} {d d' : Disk} {loc : Location} {name : String} {host : Host}

theorem Usable.makeDirectories_eq (h : Usable s d loc) :
    d.makeDirectories (Disk.chain s.directory) = .ok d := by
  obtain ⟨above, habove⟩ := Disk.chain_eq s.directory
  obtain ⟨mode, hmode⟩ := h.directory
  simp [habove, Disk.makeDirectories, Disk.makeDirectory_there h.locate hmode,
    h.directory_check h.nameable, bind, Except.bind]

/-! ## 2. Opening -/

/-- The file under a name is there exactly if the directory lists it. -/
theorem Usable.exists_name (h : Usable s d loc) (hn : Path.IsPlain name) (hup : name ≠ "..")
    (hf : Fits s name) (hname : Nameable (s.directory.child name).text) :
    d.exists? (s.directory.child name) = .ok (decide (name ∈ d.tree.children loc)) := by
  have hpath := Disk.pathFault?_none_iff.mpr hname
  have hfind : d.find true (s.directory.child name).text = _ := h.find_fits hn hup hf
  cases hnode : nodeAt d loc name with
  | none =>
    have hnot : name ∉ d.tree.children loc := fun hm => by
      obtain ⟨node, hthere⟩ := Tree.mem_children_iff.mp hm
      unfold nodeAt at hnode
      rw [hnode] at hthere
      cases hthere
    rw [decide_eq_false hnot]
    exact Disk.check_of_absent (by rw [Disk.stat, hfind, hnode]; rfl)
  | some node =>
    rw [decide_eq_true (Tree.mem_children_iff.mpr ⟨node, hnode⟩)]
    exact Disk.check_of_stat hpath (by rw [Disk.stat, hfind, hnode]; rfl)

/-- What making a missing file of a shape leaves. -/
theorem Usable.initialise_exec (h : Usable s host.disk loc) (hn : Path.IsPlain name)
    (hup : name ≠ "..") (hf : Fits s name) (hname : Nameable (s.directory.child name).text)
    (shape : Shape) :
    ∃ disk after, (initialise (s.directory.child name) shape).exec host = (.ok (), after) ∧
      Became host disk after ∧
      if name ∈ host.disk.tree.children loc then disk = host.disk
      else Saved s loc name shape.empty host.disk disk := by
  have hquery : (Run.query fun host => host.disk.exists? (s.directory.child name)).exec host =
      (.ok (decide (name ∈ host.disk.tree.children loc)), host) := by
    rw [Run.exec_query, h.exists_name hn hup hf hname]
  by_cases hthere : name ∈ host.disk.tree.children loc
  · refine ⟨host.disk, host, ?_, Became.stored host _, ?_⟩
    · rw [initialise, Run.exec_bind_ok hquery, decide_eq_true hthere]
      rfl
    · rw [if_pos hthere]
  · have hw : shape.empty.isWritable = true := by
      cases shape <;> rfl
    obtain ⟨disk, after, hsave, hsaved, hbecame⟩ := h.save_exec hn hup hname hw
    refine ⟨disk, after, ?_, hbecame, ?_⟩
    · rw [initialise, Run.exec_bind_ok hquery, decide_eq_false hthere]
      exact hsave
    · rw [if_neg hthere]
      exact hsaved

/-- **Opening a store** in a directory that is there never fails, and makes its two files where they
are missing. -/
theorem Usable.open_exec (h : Usable s host.disk loc) :
    ∃ middle disk after, (openAt (some s.directory) s.maxErrors).exec host = (.ok s, after) ∧
      Became host disk after ∧
      (if manifestName ∈ host.disk.tree.children loc then middle = host.disk
        else Saved s loc manifestName (.arr []) host.disk middle) ∧
      (if statsName ∈ middle.tree.children loc then disk = middle
        else Saved s loc statsName (.obj []) middle disk) := by
  obtain ⟨hn, hup⟩ := manifestName_plain
  obtain ⟨hn', hup'⟩ := statsName_plain
  have hmake : (Run.changeDisk fun disk => disk.makeDirectories (Disk.chain s.directory)).exec host =
      (.ok (), host) := by
    rw [Run.exec_changeDisk, h.makeDirectories_eq]
  obtain ⟨middle, opened, hmanifest, hbecame, hmiddle⟩ :=
    h.initialise_exec hn hup h.manifestFits h.nameable_manifest .list
  have husable : Usable s middle loc := by
    split at hmiddle
    · rw [hmiddle]
      exact h
    · exact h.saved hmiddle hn hup
  have hopened : Usable s opened.disk loc := hbecame.disk ▸ husable
  obtain ⟨disk, after, hstats, hbecame', hdisk⟩ :=
    hopened.initialise_exec hn' hup' h.statsFits h.nameable_stats .table
  rw [hbecame.disk] at hdisk
  refine ⟨middle, disk, after, ?_, hbecame.trans hbecame', hmiddle, hdisk⟩
  have hpure : (pure s.directory : Run Path).exec host = (.ok s.directory, host) := rfl
  unfold openAt
  rw [Run.exec_bind_ok hpure, Run.exec_bind_ok hmake]
  refine (Run.exec_bind_ok hmanifest).trans ?_
  exact Run.exec_bind_ok hstats

/-! ## 3. Clearing -/

/-- The names of a store's record files, as far as they end like those of documents. -/
def recordNames (names : List String) : List String :=
  names.filter fun name =>
    Files.Glob.fits "*.json" name && (name != manifestName && name != statsName)

theorem name_child (p : Path) (h : Path.IsPlain name) : (p.child name).name = name := by
  rw [Path.child_plain p h, Path.name, List.getLast?_concat, Option.getD_some]

theorem Usable.paths_json (h : Usable s d loc) :
    Files.Glob.paths d s.directory "*.json" =
      .ok (((d.tree.children loc).filter (Files.Glob.fits "*.json")).map s.directory.child) := by
  have hparts : Path.partsOf "*.json" = ["*.json"] := by decide
  have hgood : (["*.json"].any fun c => Text.contains c "**" && c != "**") = false := by decide
  unfold Files.Glob.paths
  dsimp only
  rw [hparts, hgood, if_neg Bool.false_ne_true, h.directory_check h.nameable,
    h.select_eq h.fits (by decide) (by decide)]
  rfl

/-- **Clearing a store** deletes the files of its records, tells how many, and leaves an empty manifest
and empty statistics. -/
theorem Usable.clear_exec (h : Usable s host.disk loc)
    (hnodup : (host.disk.tree.children loc).Nodup) :
    ∃ cleared listed disk after,
      s.clear.exec host = (.ok (recordNames (host.disk.tree.children loc)).length, after) ∧
      Became host disk after ∧
      Left s loc (recordNames (host.disk.tree.children loc)) host.disk cleared ∧
      Saved s loc manifestName (.arr []) cleared listed ∧
      Saved s loc statsName (.obj []) listed disk := by
  have hnames : ∀ name ∈ recordNames (host.disk.tree.children loc),
      name ∈ host.disk.tree.children loc := fun name hm => (List.mem_filter.mp hm).1
  have hquery : (Run.query fun host => Files.Glob.paths host.disk s.directory "*.json").exec host =
      (.ok (((host.disk.tree.children loc).filter (Files.Glob.fits "*.json")).map
        s.directory.child), host) := by
    rw [Run.exec_query, h.paths_json]
  have hrecords : (((host.disk.tree.children loc).filter (Files.Glob.fits "*.json")).map
      s.directory.child).filter (fun path => path.name != manifestName && path.name != statsName) =
        (recordNames (host.disk.tree.children loc)).map s.directory.child := by
    rw [List.filter_map, List.filter_filter, recordNames]
    refine congrArg _ (List.filter_congr fun name hm => ?_)
    rw [Function.comp_apply, name_child _ (h.name_of_mem hm).1, Bool.and_comm]
  obtain ⟨count, cleared, deleted, hdelete, hleft, hbecame, hcount⟩ :=
    h.deleteAll_exec (fun name hm => ⟨(h.name_of_mem (hnames name hm)).1,
      (h.name_of_mem (hnames name hm)).2, h.fits name (hnames name hm)⟩)
  have hcounted := hcount (hnodup.filter _) hnames
  have husable : Usable s deleted.disk loc := hbecame.disk ▸ h.left hleft
  obtain ⟨listed, written, hmanifest, hlisted, hbecame'⟩ :=
    husable.saveManifest_exec (fun e he => absurd he (List.not_mem_nil (a := e)))
  rw [hbecame.disk] at hlisted
  obtain ⟨hn, hup⟩ := manifestName_plain
  have husable' : Usable s written.disk loc :=
    hbecame'.disk ▸ (h.left hleft).saved hlisted hn hup
  have hw : (Json.obj []).isWritable = true := rfl
  obtain ⟨disk, after, hstats, hdisk, hbecame''⟩ :=
    husable'.save_exec statsName_plain.1 statsName_plain.2 h.nameable_stats hw
  rw [hbecame'.disk] at hdisk
  refine ⟨cleared, listed, disk, after, ?_, (hbecame.trans hbecame').trans hbecame'', hleft,
    hlisted, hdisk⟩
  unfold clear
  rw [Run.exec_bind_ok hquery]
  dsimp only
  rw [hrecords, Run.exec_bind_ok hdelete, Run.exec_bind_ok hmanifest]
  refine (Run.exec_bind_ok hstats).trans ?_
  rw [hcounted]
  rfl

end ErrorStore

end Dissect
