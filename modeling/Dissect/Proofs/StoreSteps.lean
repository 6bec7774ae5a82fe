/-
# What the store's steps leave

Each step of an error store is told here by what it leaves in a settled directory: saving puts a file
under one name (`Saved`), deleting takes the files under some names away (`Left`), and both leave the
other names alone.  The files of a record are those whose names a pattern describes
(`filesOf_eq`); finding them fails only if the id makes a pattern that is refused (`Refused`).
-/
import Dissect.Proofs.NamePatterns
import Dissect.Proofs.StoredDocuments

namespace Dissect

open Files (Disk Location Node Tree Errno)

/-! ## 1. Listings -/

namespace Files.Tree

variable {t : Tree} {loc : Location} {name : String}

/-- A node put under a name adds the name to the listing, at its end, unless it is there. -/
theorem children_set (t : Tree) (loc : Location) (name : String) (node : Node) :
    (t.set (loc ++ [name]) node).children loc =
      if name ∈ t.children loc then t.children loc else t.children loc ++ [name] := by
  unfold children set
  dsimp only
  induction t.nodes with
  | nil => simp [Assoc.set, childName?_child]
  | cons entry rest ih =>
    obtain ⟨l, old⟩ := entry
    rw [Assoc.set]
    by_cases hl : loc ++ [name] = l
    · subst hl
      simp [childName?_child]
    · have hother : childName? loc l ≠ some name := fun h => hl (childName?_some h).symm
      rw [if_neg (by simpa using hl), List.filterMap_cons, List.filterMap_cons, ih]
      cases hc : childName? loc l with
      | none => rfl
      | some other =>
        have hne : name ≠ other := fun he => hother (he ▸ hc)
        simp only [List.mem_cons, hne, false_or]
        split
        · rfl
        · rfl

/-- Taking out a location takes the names off the listing that it is on the way to. -/
theorem children_erase (t : Tree) (loc place : Location) :
    (t.erase place).children loc =
      (t.children loc).filter fun name => !place.isPrefixOf (loc ++ [name]) := by
  unfold children erase
  dsimp only
  induction t.nodes with
  | nil => rfl
  | cons entry rest ih =>
    obtain ⟨l, old⟩ := entry
    rw [List.filter_cons, List.filterMap_cons]
    cases hc : childName? loc l with
    | none =>
      split
      · rw [List.filterMap_cons, hc]
        exact ih
      · exact ih
    | some name =>
      obtain rfl := childName?_some hc
      cases hoff : place.isPrefixOf (loc ++ [name]) <;> simp [hoff, hc, ih]

/-- A node taken away takes its name off the listing. -/
theorem children_erase_child (t : Tree) (loc : Location) (name : String) :
    (t.erase (loc ++ [name])).children loc = (t.children loc).filter fun other => other ≠ name := by
  rw [children_erase]
  refine List.filter_congr fun other _ => ?_
  have hbegins : (loc ++ [name]).isPrefixOf (loc ++ [other]) = decide (other = name) := by
    rw [Bool.eq_iff_iff, List.isPrefixOf_iff_prefix, List.prefix_append_right_inj]
    simp [List.cons_prefix_cons, eq_comm]
  simp [hbegins]

/-- A location that is taken out takes no name off the listing of a directory, unless it is on the way
to one of these names. -/
theorem children_erase_of_apart {place : Location} (t : Tree)
    (h : ∀ name, ¬ place <+: loc ++ [name]) : (t.erase place).children loc = t.children loc := by
  rw [children_erase]
  refine List.filter_eq_self.mpr fun name _ => ?_
  rw [Bool.not_eq_true', Bool.eq_false_iff]
  exact fun hp => h name (List.isPrefixOf_iff_prefix.mp hp)

end Files.Tree

namespace ErrorStore

open Files.Disk (Nameable)

variable {s : ErrorStore} {d d' : Disk} {loc : Location} {name : String} {document : Json}
  {host : Host}

/-! ## 2. Saving -/

/-- What saving a document under a name leaves: a file with its text, or nothing new if the name does
not fit. -/
inductive Saved (s : ErrorStore) (loc : Location) (name : String) (document : Json) (d : Disk) :
    Disk → Prop where
  | written (fits : Fits s name) (mode : Nat) :
      Saved s loc name document d
        { d with tree := d.tree.set (loc ++ [name]) (.file (.bytes (fileBytes document)) mode) }
  | refused (unfit : ¬ Fits s name) : Saved s loc name document d d

namespace Saved

variable (h : Saved s loc name document d d')
include h

theorem settled (hs : Settled s d loc) (hn : Path.IsPlain name) (hup : name ≠ "..") :
    Settled s d' loc := by
  cases h with
  | written _ mode => exact hs.set hn hup _ mode
  | refused _ => exact hs

theorem wellFormed (hs : Settled s d loc) (hn : Path.IsPlain name) (hup : name ≠ "..")
    (hw : d.tree.WellFormed) : d'.tree.WellFormed := by
  cases h with
  | written _ mode =>
    obtain ⟨dirMode, hdir⟩ := hs.directory
    refine hw.set_file (by rw [hdir]; rfl) ⟨hn, hup⟩ ?_ _ mode
    cases hnode : d.tree.get? (loc ++ [name]) with
    | none => rfl
    | some node =>
      have hfile := hs.files name node hnode
      cases node with
      | directory _ => cases hfile
      | _ => rfl
  | refused _ => exact hw

/-- The other names keep their nodes. -/
theorem others {other : String} (hne : other ≠ name) : nodeAt d' loc other = nodeAt d loc other := by
  cases h with
  | written _ mode => exact Tree.get?_set_of_ne (by simpa using hne) _
  | refused _ => rfl

theorem self (hf : Fits s name) :
    ∃ mode, nodeAt d' loc name = some (.file (.bytes (fileBytes document)) mode) := by
  cases h with
  | written _ mode => exact ⟨mode, Tree.get?_set_self (by simp) _⟩
  | refused unfit => exact absurd hf unfit

theorem children (hf : Fits s name) : d'.tree.children loc =
    if name ∈ d.tree.children loc then d.tree.children loc
    else d.tree.children loc ++ [name] := by
  cases h with
  | written _ mode => exact Tree.children_set _ _ _ _
  | refused unfit => exact absurd hf unfit

/-- Every name in the directory fits, if it did before. -/
theorem fits (hall : ∀ other ∈ d.tree.children loc, Fits s other) :
    ∀ other ∈ d'.tree.children loc, Fits s other := by
  intro other hother
  by_cases hne : other = name
  · subst hne
    cases h with
    | written hf mode => exact hf
    | refused _ => exact hall other hother
  · obtain ⟨node, hnode⟩ := Tree.mem_children_iff.mp hother
    exact hall other (Tree.mem_children_iff.mpr ⟨node, (h.others hne).symm.trans hnode⟩)

end Saved

/-- The host after a step is as it was before, but for the disk and the log. -/
def Became (host : Host) (disk : Disk) (after : Host) : Prop :=
  ∃ log, after = { host with disk, log }

namespace Became

theorem of_logged {after : Host} (h : host.OnlyLogged after) : Became host host.disk after := by
  obtain ⟨log, rfl⟩ := h
  exact ⟨log, rfl⟩

theorem stored (host : Host) (disk : Disk) : Became host disk { host with disk } :=
  ⟨host.log, rfl⟩

theorem trans {middle after : Host} {disk disk' : Disk} (h : Became host disk middle)
    (h' : Became middle disk' after) : Became host disk' after := by
  obtain ⟨log, rfl⟩ := h
  obtain ⟨log', rfl⟩ := h'
  exact ⟨log', rfl⟩

theorem disk {after : Host} {disk : Disk} (h : Became host disk after) : after.disk = disk := by
  obtain ⟨log, rfl⟩ := h
  rfl

theorem clock {after : Host} {disk : Disk} (h : Became host disk after) :
    after.clock = host.clock := by
  obtain ⟨log, rfl⟩ := h
  rfl

theorem recordsTaken {after : Host} {disk : Disk} (h : Became host disk after) :
    after.recordsTaken = host.recordsTaken := by
  obtain ⟨log, rfl⟩ := h
  rfl

end Became

/-- **Saving a document that can be written never fails**, and leaves it under its name. -/
theorem Settled.save_exec (h : Settled s host.disk loc) (hn : Path.IsPlain name) (hup : name ≠ "..")
    (hname : Nameable (s.directory.child name).text) (hw : document.isWritable = true) :
    ∃ disk after, (save (s.directory.child name) document).exec host = (.ok (), after) ∧
      Saved s loc name document host.disk disk ∧ Became host disk after := by
  rw [save_eq, Disk.pathFault?_none_iff.mpr hname]
  unfold writeDocument
  rw [Json.writableText_eq _ hw]
  by_cases hf : Fits s name
  · obtain ⟨mode, hwrite⟩ := h.write_fits hn hup hf (Text.encode (document.text (some 2)))
    refine ⟨_, _, ?_, .written hf mode, Became.stored host _⟩
    dsimp only
    rw [Run.exec_bind_ok (Run.exec_get host), hwrite]
    simp only [hw, Bool.not_true, Bool.false_eq_true, if_false]
    rfl
  · have hwrite := h.write_unfit hn hup hf (Text.encode (document.text (some 2)))
    refine ⟨host.disk, host.noted .error ("Failed to save " ++ (s.directory.child name).name ++ ": " ++
      (Errno.nameTooLong.fault (s.directory.child name).text).message), ?_, .refused hf,
      Became.of_logged (Host.OnlyLogged.noted _ _ _)⟩
    dsimp only
    rw [Run.exec_bind_ok (Run.exec_get host), hwrite]
    rfl

/-- **Saving under a name that fits fails exactly if the document has a number too long.** -/
theorem Settled.save_fails_iff (h : Settled s host.disk loc) (hn : Path.IsPlain name)
    (hup : name ≠ "..") (hf : Fits s name) (hname : Nameable (s.directory.child name).text) :
    (save (s.directory.child name) document).FailsAt host ↔ document.isWritable = false := by
  cases hw : document.isWritable with
  | true =>
    obtain ⟨disk, after, hsave, -⟩ := h.save_exec hn hup hname hw
    constructor
    · rintro ⟨fault, hfails⟩
      rw [hsave] at hfails
      cases hfails
    · intro hno
      cases hno
  | false =>
    refine ⟨fun _ => rfl, fun _ => ⟨digitsFault, ?_⟩⟩
    obtain ⟨mode, hwrite⟩ :=
      h.write_fits hn hup hf (Text.encode (document.writableText (some 2)))
    rw [save_eq, Disk.pathFault?_none_iff.mpr hname]
    unfold writeDocument
    rw [Run.exec_bind_ok (Run.exec_get host), hwrite]
    simp only [hw, Bool.not_false, if_true]
    rfl

/-! ## 3. Deleting -/

/-- What is left of a settled directory when the files under some names are deleted. -/
structure Left (s : ErrorStore) (loc : Location) (names : List String) (d d' : Disk) : Prop where
  settled : Settled s d' loc
  node : ∀ name, nodeAt d' loc name = if name ∈ names then none else nodeAt d loc name
  children : d'.tree.children loc = (d.tree.children loc).filter fun name => name ∉ names

namespace Left

variable {names more : List String} {d'' : Disk}

theorem nothing (h : Settled s d loc) : Left s loc [] d d :=
  ⟨h, fun _ => by simp, by simp⟩

theorem one (h : Settled s d loc) (name : String) :
    Left s loc [name] d { d with tree := d.tree.erase (loc ++ [name]) } := by
  refine ⟨h.erase, fun other => ?_, ?_⟩
  · by_cases hne : other = name
    · subst hne
      rw [if_pos (List.mem_singleton_self other)]
      exact Tree.get?_erase_self (Enclosed.child_ne_nil loc other)
    · rw [if_neg (by simpa using hne)]
      exact h.get?_erase_of_ne (by simpa using hne)
  · rw [Tree.children_erase_child]
    simp

theorem append (h : Left s loc names d d') (h' : Left s loc more d' d'') :
    Left s loc (names ++ more) d d'' := by
  refine ⟨h'.settled, fun name => ?_, ?_⟩
  · rw [h'.node, h.node]
    by_cases hmore : name ∈ more
    · rw [if_pos hmore, if_pos (List.mem_append_right _ hmore)]
    · rw [if_neg hmore]
      by_cases hnames : name ∈ names
      · rw [if_pos hnames, if_pos (List.mem_append_left _ hnames)]
      · rw [if_neg hnames, if_neg fun hm => (List.mem_append.mp hm).elim hnames hmore]
  · rw [h'.children, h.children, List.filter_filter]
    refine List.filter_congr fun name _ => ?_
    simp [Bool.and_comm]

/-- A name that is in no need of deleting can be counted in. -/
theorem absent (h : Left s loc names d d') (hname : name ∉ d.tree.children loc) :
    Left s loc (name :: names) d d' := by
  have hnode : nodeAt d loc name = none := by
    cases hnode : nodeAt d loc name with
    | none => rfl
    | some node => exact absurd (Tree.mem_children_iff.mpr ⟨node, hnode⟩) hname
  refine ⟨h.settled, fun other => ?_, ?_⟩
  · rw [h.node]
    by_cases hne : other = name
    · subst hne
      rw [if_pos List.mem_cons_self, hnode]
      exact ite_self none
    · simp [hne]
  · rw [h.children]
    refine List.filter_congr fun other hother => ?_
    have hne : other ≠ name := fun he => hname (he ▸ hother)
    simp [hne]

/-- Every name that is left fits, if all did. -/
theorem fits (h : Left s loc names d d') (hall : ∀ other ∈ d.tree.children loc, Fits s other) :
    ∀ other ∈ d'.tree.children loc, Fits s other := by
  intro other hother
  rw [h.children] at hother
  exact hall other (List.mem_filter.mp hother).1

end Left

theorem Settled.name_of_mem (h : Settled s d loc) (hm : name ∈ d.tree.children loc) :
    Path.IsPlain name ∧ name ≠ ".." := by
  obtain ⟨node, hnode⟩ := Tree.mem_children_iff.mp hm
  exact h.plain name node hnode

/-- What is not there cannot be deleted. -/
theorem Settled.unlink_absent (h : Settled s d loc) (hn : Path.IsPlain name) (hup : name ≠ "..")
    (hf : Fits s name) (hthere : name ∉ d.tree.children loc) :
    d.unlink (s.directory.child name).text = .error .noEntry := by
  have hnode : nodeAt d loc name = none := by
    cases hnode : nodeAt d loc name with
    | none => rfl
    | some node => exact absurd (Tree.mem_children_iff.mpr ⟨node, hnode⟩) hthere
  have hfind : d.find false (s.directory.child name).text = .error .noEntry := by
    rw [h.find_fits hn hup hf, hnode]
  simp [Disk.unlink, hfind, bind, Except.bind]

/-- **Deleting files never fails**: those that are there go, and the others are reported. -/
theorem Settled.deleteAll_exec {names : List String} (h : Settled s host.disk loc)
    (hnames : ∀ name ∈ names, Path.IsPlain name ∧ name ≠ ".." ∧ Fits s name) :
    ∃ count disk after, (deleteAll (names.map s.directory.child)).exec host = (.ok count, after) ∧
      Left s loc names host.disk disk ∧ Became host disk after ∧
      (names.Nodup → (∀ name ∈ names, name ∈ host.disk.tree.children loc) →
        count = names.length) := by
  induction names generalizing host with
  | nil => exact ⟨0, host.disk, host, rfl, Left.nothing h, Became.stored host _, fun _ _ => rfl⟩
  | cons name rest ih =>
    obtain ⟨hn, hup, hf⟩ := hnames name List.mem_cons_self
    have hrest : ∀ name ∈ rest, Path.IsPlain name ∧ name ≠ ".." ∧ Fits s name :=
      fun other hm => hnames other (List.mem_cons_of_mem _ hm)
    rw [List.map_cons, deleteAll, Run.exec_bind_ok (Run.exec_get host)]
    by_cases hthere : name ∈ host.disk.tree.children loc
    · obtain ⟨node, hnode⟩ := Tree.mem_children_iff.mp hthere
      have hone := Left.one h name
      have hunlink := h.unlink_fits hn hup hf hnode
      generalize hdisk : { host.disk with tree := host.disk.tree.erase (loc ++ [name]) } = disk
        at hone hunlink
      have hsettled : Settled s ({ host with disk } : Host).disk loc := hone.settled
      obtain ⟨count, disk', after, hexec, hleft, hbecame, hcount⟩ := ih hsettled hrest
      refine ⟨count + 1, disk', after, ?_, hone.append hleft,
        (Became.stored host disk).trans hbecame, fun hnodup hmem => ?_⟩
      · rw [hunlink]
        dsimp only
        rw [Run.exec_bind_ok (Run.exec_set _ host), Run.exec_bind_ok hexec]
        rfl
      · obtain ⟨hnot, hnodup⟩ := List.nodup_cons.mp hnodup
        rw [hcount hnodup fun other hm => ?_, List.length_cons]
        rw [hone.children]
        refine List.mem_filter.mpr ⟨hmem other (List.mem_cons_of_mem _ hm), ?_⟩
        have hne : other ≠ name := fun he => hnot (he ▸ hm)
        simpa using hne
    · rw [h.unlink_absent hn hup hf hthere]
      dsimp only
      generalize "Failed to delete " ++ (s.directory.child name).text ++ ": " ++
        (Errno.noEntry.fault (s.directory.child name).text).message = message
      have hsettled : Settled s (host.noted .warning message).disk loc := h
      obtain ⟨count, disk', after, hexec, hleft, hbecame, -⟩ := ih hsettled hrest
      refine ⟨count, disk', after, ?_, hleft.absent hthere,
        (Became.of_logged (Host.OnlyLogged.noted _ _ _)).trans hbecame,
        fun _ hmem => absurd (hmem name List.mem_cons_self) hthere⟩
      rw [Run.exec_bind_ok (Run.exec_note _ _ host)]
      exact hexec

/-! ## 4. The files of a record -/

/-- The id makes a pattern that is refused: one with two stars beside other characters. -/
def Refused (id : String) : Prop :=
  ((Path.partsOf ("*_" ++ id ++ ".json")).any fun c => Text.contains c "**" && c != "**") = true

/-- The name is one that the pattern for the files of a record describes.  A pattern of several
components describes names further down only. -/
def describes (id name : String) : Bool :=
  match Path.partsOf ("*_" ++ id ++ ".json") with
  | [component] => Files.Glob.fits component name
  | _ => false

theorem Settled.directory_check (h : Settled s d loc) (hdir : Nameable s.directory.text) :
    d.isDirectory s.directory = .ok true := by
  obtain ⟨mode, hmode⟩ := h.directory
  refine Disk.isDirectory_true_iff.mpr ⟨Disk.pathFault?_none_iff.mpr hdir, mode, ?_⟩
  unfold Disk.stat
  rw [Disk.find_of_locate h.locate hmode]
  rfl

/-- What a pattern of several components, or of one, selects in the store's directory. -/
theorem Settled.select_eq (h : Settled s d loc)
    (hfits : ∀ name ∈ d.tree.children loc, Fits s name) {component : String} {rest : List String}
    (hstars : component ≠ "**") (hpattern : Files.Glob.isPattern component = true) :
    Files.Glob.select d s.directory (component :: rest) =
      .ok (((d.tree.children loc).filter fun name =>
        rest.isEmpty && Files.Glob.fits component name).map s.directory.child) := by
  unfold Files.Glob.select
  simp only [hstars, if_false, hpattern, if_true, h.names_eq, Except.toOption, Option.getD_some]
  cases rest with
  | nil =>
    simp only [List.isEmpty_nil, if_true, bind, Except.bind, pure, Except.pure,
      Files.Glob.select, mapM_single, Bool.true_and]
    rw [← List.flatMap_def, List.flatMap_singleton']
  | cons next more =>
    -- there is no directory in which the pattern could go on
    have hnone : Files.Glob.directoriesIn d (((d.tree.children loc).filter
        (Files.Glob.fits component)).map s.directory.child) = .ok [] := by
      refine filterM_none fun path hpath => ?_
      obtain ⟨name, hname, rfl⟩ := List.mem_map.mp hpath
      have hmem := (List.mem_filter.mp hname).1
      obtain ⟨hn, hup⟩ := h.name_of_mem hmem
      obtain ⟨node, hnode⟩ := Tree.mem_children_iff.mp hmem
      obtain ⟨content, mode, rfl⟩ := h.file_of_node hnode
      have hstat : d.stat (s.directory.child name).text = .ok (.file content mode) := by
        have hat : nodeAt d loc name = some (.file content mode) := hnode
        unfold Disk.stat
        rw [h.find_fits hn hup (hfits name hmem), hat]
        rfl
      unfold Disk.isDirectory Disk.check
      rw [hstat]
      split <;> rfl
    simp [hnone, bind, Except.bind, pure, Except.pure]

theorem filesOf_refused {id : String} (hr : Refused id) :
    s.filesOf d id = .error Files.Glob.invalidPattern := by
  unfold filesOf Files.Glob.paths
  exact if_pos hr

/-- **The files of a record** are those of the names that its pattern describes, where all names
fit. -/
theorem Settled.filesOf_eq (h : Settled s d loc) (hdir : Nameable s.directory.text)
    (hfits : ∀ name ∈ d.tree.children loc, Fits s name) {id : String} (hr : ¬ Refused id) :
    s.filesOf d id =
      .ok (((d.tree.children loc).filter (describes id)).map s.directory.child) := by
  obtain ⟨component, rest, hparts, -, hstars, hpattern⟩ := partsOf_pattern id
  have hdescribes : describes id = fun name =>
      rest.isEmpty && Files.Glob.fits component name := by
    funext name
    unfold describes
    rw [hparts]
    cases rest <;> rfl
  unfold filesOf Files.Glob.paths
  refine (if_neg hr).trans ?_
  rw [hparts, h.directory_check hdir, h.select_eq hfits hstars hpattern]
  rw [hdescribes]
  rfl

/-- The pattern for the files of a record describes only names with an underscore. -/
theorem underscore_of_describes {id : String} (h : describes id name = true) :
    '_' ∈ name.toList := by
  obtain ⟨component, rest, hparts, ⟨tail, hchars⟩, -⟩ := partsOf_pattern id
  unfold describes at h
  rw [hparts] at h
  cases rest with
  | nil => exact Files.Glob.mem_of_fits (by unfold Files.Glob.IsOrdinary; decide) hchars h
  | cons next more => cases h

/-- The files of the first of some records are deleted before those of the others. -/
theorem Settled.deleteRecords_cons (h : Settled s host.disk loc)
    (hdir : Nameable s.directory.text) (hfits : ∀ name ∈ host.disk.tree.children loc, Fits s name)
    {e : ManifestEntry} (hr : ¬ Refused e.id.plainText) (rest : List ManifestEntry) :
    ∃ disk middle, (s.deleteRecords (e :: rest)).exec host = (s.deleteRecords rest).exec middle ∧
      Left s loc ((host.disk.tree.children loc).filter (describes e.id.plainText)) host.disk disk ∧
      Became host disk middle := by
  have hquery : (Run.query fun host => s.filesOf host.disk e.id.plainText).exec host =
      (.ok (((host.disk.tree.children loc).filter (describes e.id.plainText)).map
        s.directory.child), host) := by
    rw [Run.exec_query, h.filesOf_eq hdir hfits hr]
  have hnames : ∀ name ∈ (host.disk.tree.children loc).filter (describes e.id.plainText),
      Path.IsPlain name ∧ name ≠ ".." ∧ Fits s name := by
    intro name hname
    have hmem := (List.mem_filter.mp hname).1
    obtain ⟨hn, hup⟩ := h.name_of_mem hmem
    exact ⟨hn, hup, hfits name hmem⟩
  obtain ⟨count, disk, middle, hdelete, hleft, hbecame, -⟩ := h.deleteAll_exec hnames
  refine ⟨disk, middle, ?_, hleft, hbecame⟩
  rw [deleteRecords, Run.exec_bind_ok hquery, Run.exec_bind_ok hdelete]

/-- **The files of records are deleted, and no others**, unless one of the ids is refused. -/
theorem Settled.deleteRecords_exec {entries : List ManifestEntry} (h : Settled s host.disk loc)
    (hdir : Nameable s.directory.text) (hfits : ∀ name ∈ host.disk.tree.children loc, Fits s name)
    (hids : ∀ e ∈ entries, ¬ Refused e.id.plainText) :
    ∃ names disk after, (s.deleteRecords entries).exec host = (.ok (), after) ∧
      Left s loc names host.disk disk ∧ Became host disk after ∧
      ∀ name, name ∈ names ↔ name ∈ host.disk.tree.children loc ∧
        ∃ e ∈ entries, describes e.id.plainText name = true := by
  induction entries generalizing host with
  | nil => exact ⟨[], host.disk, host, rfl, Left.nothing h, Became.stored host _, by simp⟩
  | cons e rest ih =>
    obtain ⟨disk, middle, hfirst, hleft, hbecame⟩ :=
      h.deleteRecords_cons hdir hfits (hids e List.mem_cons_self) rest
    have hdisk := hbecame.disk
    obtain ⟨names, disk', after, hexec, hleft', hbecame', hmem⟩ :=
      ih (hdisk ▸ hleft.settled) (hdisk ▸ hleft.fits hfits)
        fun e' he' => hids e' (List.mem_cons_of_mem _ he')
    rw [hdisk] at hleft' hmem
    refine ⟨_, disk', after, hfirst.trans hexec, hleft.append hleft', hbecame.trans hbecame',
      fun name => ?_⟩
    rw [List.mem_append, hmem, hleft.children, List.mem_filter, List.mem_filter]
    constructor
    · rintro (⟨hthere, hdescribes⟩ | ⟨⟨hthere, -⟩, e', he', hdescribes⟩)
      · exact ⟨hthere, e, List.mem_cons_self, hdescribes⟩
      · exact ⟨hthere, e', List.mem_cons_of_mem _ he', hdescribes⟩
    · rintro ⟨hthere, e', he', hdescribes⟩
      by_cases hself : describes e.id.plainText name = true
      · exact .inl ⟨hthere, hself⟩
      · rcases List.mem_cons.mp he' with rfl | he'
        · exact absurd hdescribes hself
        · refine .inr ⟨⟨hthere, ?_⟩, e', he', hdescribes⟩
          simp [hthere, hself]

/-- **Deleting the files of records fails exactly if an id is refused.** -/
theorem Settled.deleteRecords_fails_iff {entries : List ManifestEntry}
    (h : Settled s host.disk loc) (hdir : Nameable s.directory.text)
    (hfits : ∀ name ∈ host.disk.tree.children loc, Fits s name) :
    (s.deleteRecords entries).FailsAt host ↔ ∃ e ∈ entries, Refused e.id.plainText := by
  induction entries generalizing host with
  | nil =>
    constructor
    · exact fun hfails => absurd hfails (Run.FailsAt.pure ())
    · rintro ⟨e, he, -⟩
      cases he
  | cons e rest ih =>
    by_cases hr : Refused e.id.plainText
    · refine ⟨fun _ => ⟨e, List.mem_cons_self, hr⟩, fun _ => ?_⟩
      rw [deleteRecords, Run.FailsAt.bind_iff]
      exact .inl (Run.FailsAt.query.mpr ⟨_, filesOf_refused hr⟩)
    · obtain ⟨disk, middle, hfirst, hleft, hbecame⟩ := h.deleteRecords_cons hdir hfits hr rest
      have hdisk := hbecame.disk
      have hrest : (s.deleteRecords rest).FailsAt middle ↔ ∃ e ∈ rest, Refused e.id.plainText :=
        ih (hdisk ▸ hleft.settled) (hdisk ▸ hleft.fits hfits)
      unfold Run.FailsAt at hrest ⊢
      rw [hfirst, hrest]
      simp [hr]

end ErrorStore

end Dissect
