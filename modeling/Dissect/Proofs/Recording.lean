/-
# What recording a failure changes

An error store writes and deletes files in its directory.  Where no path leads on through anything
in that directory (`Enclosed`), nothing outside it changes: no name in it is a link that leads a write
elsewhere, and no directory in it lets the pattern for a record's files describe anything further
down or, by way of names that lead up, anywhere else.  So it is where the directory holds regular files
only (`Settled`), as it does when nothing but the store puts anything there.  Where the directory is
not there at all (`Missing`) nothing changes.

`Recorded` and `Unwritten` collect what a host can be after any of the store's steps, in the one case
and in the other.  They are among the properties that these steps uphold (`upheld_recorded`,
`upheld_unwritten`), and recording keeps all of those (`record_keeps`).
-/
import Dissect.ErrorStore.Basic
import Dissect.Proofs.FileOperations
import Dissect.Proofs.Steps

namespace Dissect

open Files (Disk Location Node Tree Errno)

namespace ErrorStore

/-! ## 1. The names of the store's files -/

/-- A name with an underscore and no slash is plain, and not the one that leads up. -/
theorem plain_of_underscore {name : String} (hmem : '_' ∈ name.toList)
    (hslash : '/' ∉ name.toList) : Path.IsPlain name ∧ name ≠ ".." := by
  refine ⟨⟨?_, ?_, hslash⟩, ?_⟩ <;> (rintro rfl; simp at hmem)

theorem not_slash_of_isDigit {c : Char} (h : c.isDigit = true) : c ≠ '/' := by
  rintro rfl
  cases h

theorem slash_not_mem_nat (n : Nat) : '/' ∉ (toString n).toList := by
  intro hm
  rw [Nat.toString_eq_repr, Nat.toList_repr] at hm
  exact not_slash_of_isDigit (Nat.isDigit_of_mem_toDigits (by decide) (by decide) hm) rfl

theorem slash_not_mem_int (n : Int) : '/' ∉ n.repr.toList := by
  cases n with
  | ofNat n => exact slash_not_mem_nat n
  | negSucc n =>
    have h : (Int.negSucc n).repr = "-" ++ toString (n + 1) := rfl
    rw [h, String.toList_append]
    intro hm
    rcases List.mem_append.mp hm with hsign | hdigits
    · simp at hsign
    · exact slash_not_mem_nat (n + 1) hdigits

theorem slash_not_mem_two (n : Nat) : '/' ∉ (Moment.two n).toList := by
  unfold Moment.two
  split
  · rw [String.toList_append]
    intro hm
    rcases List.mem_append.mp hm with hzero | hdigits
    · simp at hzero
    · exact slash_not_mem_nat n hdigits
  · exact slash_not_mem_nat n

theorem slash_not_mem_hexDigits : ∀ {width n : Nat}, '/' ∉ Text.hexDigits width n
  | 0, _ => by simp [Text.hexDigits]
  | width + 1, n => by
    have ih : '/' ∉ Text.hexDigits width (n / 16) := slash_not_mem_hexDigits
    have hall : ∀ k : Fin 16, Text.hexDigit k.val ≠ '/' := by decide
    have hlast := hall ⟨n % 16, Nat.mod_lt _ (by decide)⟩
    simp only [Text.hexDigits, List.mem_append, List.mem_singleton, not_or]
    exact ⟨ih, Ne.symm hlast⟩

/-- The file name of a record is plain. -/
theorem recordName_plain (m : Moment) {operation : String} (ho : '/' ∉ operation.toList) (n : Nat) :
    Path.IsPlain (m.compact ++ "_" ++ operation ++ "_" ++ idOf n ++ ".json") ∧
      m.compact ++ "_" ++ operation ++ "_" ++ idOf n ++ ".json" ≠ ".." := by
  refine plain_of_underscore ?_ ?_
  · simp [String.toList_append]
  · simp [String.toList_append, Moment.compact, idOf, slash_not_mem_int, slash_not_mem_two,
      slash_not_mem_hexDigits, ho]

/-! ## 2. A store from which no path leads on -/

/-- The store's directory is there, at the given location, and no path leads on through anything in
it: it holds neither directories nor links, under plain names and with nothing below them. -/
structure Enclosed (s : ErrorStore) (d : Disk) (loc : Location) : Prop where
  proper : s.directory.Proper
  locate : d.locate true s.directory.text = .ok loc
  directory : ∃ mode, d.tree.get? loc = some (.directory mode)
  plain : ∀ name node, d.tree.get? (loc ++ [name]) = some node → Path.IsPlain name ∧ name ≠ ".."
  ends : ∀ name node, d.tree.get? (loc ++ [name]) = some node → node.leadsOn = false
  flat : ∀ name rest, rest ≠ [] → d.tree.get? (loc ++ name :: rest) = none

/-- All that the store's directory holds is regular files. -/
structure Settled (s : ErrorStore) (d : Disk) (loc : Location) : Prop extends Enclosed s d loc where
  files : ∀ name node, d.tree.get? (loc ++ [name]) = some node → node.isFile = true

/-- The location is strictly below the other one. -/
def Below (loc l : Location) : Prop := loc <+: l ∧ l ≠ loc

instance (loc l : Location) : Decidable (Below loc l) := inferInstanceAs (Decidable (_ ∧ _))

theorem below_child (loc : Location) (name : String) : Below loc (loc ++ [name]) :=
  ⟨List.prefix_append _ _, by simp⟩

variable {s : ErrorStore} {d d' : Disk} {loc : Location} {name : String}

namespace Enclosed

/-- On a well-formed disk it is enough that nothing in the directory leads on. -/
theorem of_wellFormed (hw : d.tree.WellFormed) (hproper : s.directory.Proper)
    (hlocate : d.locate true s.directory.text = .ok loc)
    (hdirectory : ∃ mode, d.tree.get? loc = some (.directory mode))
    (hends : ∀ name node, d.tree.get? (loc ++ [name]) = some node → node.leadsOn = false) :
    Enclosed s d loc where
  proper := hproper
  locate := hlocate
  directory := hdirectory
  plain name node hnode := hw.plain loc name (by rw [hnode]; rfl)
  ends := hends
  flat name rest hrest := by
    rw [← List.singleton_append, ← List.append_assoc]
    refine hw.vacant_below ?_ hrest
    cases hnode : d.tree.get? (loc ++ [name]) with
    | none => rfl
    | some node =>
      have hend := hends name node hnode
      cases node with
      | directory mode => cases hend
      | _ => rfl

/-- A name in the directory leads below it. -/
theorem locate_child (h : Enclosed s d loc) {followLast : Bool} {reached : Location}
    (hn : Path.IsPlain name) (hup : name ≠ "..")
    (hl : d.locate followLast (s.directory.child name).text = .ok reached) :
    reached = loc ++ [name] := by
  have hlink : ∀ base target, d.locate true s.directory.text = .ok base →
      d.tree.get? (base ++ [name]) ≠ some (.link target) := by
    intro base target hbase hnode
    rw [h.locate] at hbase
    cases hbase
    cases h.ends name _ hnode
  obtain ⟨base, hbase, rfl, -⟩ := Disk.locate_child h.proper hn hup hl fun _ => hlink
  rw [h.locate] at hbase
  cases hbase
  rfl

theorem child_ne_nil (loc : Location) (name : String) : loc ++ [name] ≠ [] := by simp

theorem below_ne_child {other : String} {rest : List String} (hrest : rest ≠ []) :
    loc ++ other :: rest ≠ loc ++ [name] := by
  intro he
  have h := List.append_cancel_left he
  simp only [List.cons.injEq] at h
  exact hrest h.2

/-- The directory after a change to one name in it, under which there is a regular file or nothing
afterwards. -/
theorem edited (h : Enclosed s d loc) {t : Tree}
    (hothers : ∀ l, l ≠ loc ++ [name] → t.get? l = d.tree.get? l)
    (hhere : ∀ node, t.get? (loc ++ [name]) = some node →
      node.isFile = true ∧ Path.IsPlain name ∧ name ≠ "..") :
    Enclosed s { d with tree := t } loc := by
  have hkeeps : d.tree.Keeps t := by
    refine Tree.Keeps.of_change (h.ends name) (fun target hlink => ?_) hothers
    cases (hhere _ hlink).1
  have hother : ∀ other, other ≠ name →
      t.get? (loc ++ [other]) = d.tree.get? (loc ++ [other]) := fun other hne =>
    hothers _ (by simpa using hne)
  refine ⟨h.proper, Disk.locate_keeps hkeeps rfl h.locate, ?_, fun other node hnode => ?_,
    fun other node hnode => ?_, fun other rest hrest => ?_⟩
  · obtain ⟨dirMode, hdir⟩ := h.directory
    exact ⟨dirMode, hkeeps.directory loc dirMode hdir⟩
  · by_cases he : other = name
    · subst he
      exact (hhere node hnode).2
    · exact h.plain other node ((hother other he).symm.trans hnode)
  · by_cases he : other = name
    · subst he
      exact Node.leadsOn_of_isFile (hhere node hnode).1
    · exact h.ends other node ((hother other he).symm.trans hnode)
  · exact (hothers _ (below_ne_child hrest)).trans (h.flat other rest hrest)

/-- Writing a file in the directory. -/
theorem set (h : Enclosed s d loc) (hn : Path.IsPlain name) (hup : name ≠ "..")
    (content : Files.Content) (mode : Nat) :
    Enclosed s { d with tree := d.tree.set (loc ++ [name]) (.file content mode) } loc := by
  refine h.edited (fun l hl => Tree.get?_set_of_ne hl _) fun node hnode => ?_
  rw [Tree.get?_set_self (child_ne_nil loc name)] at hnode
  cases hnode
  exact ⟨rfl, hn, hup⟩

/-- Only the file goes when a file in the directory is deleted. -/
theorem get?_erase_of_ne (h : Enclosed s d loc) {l : Location} (hl : l ≠ loc ++ [name]) :
    (d.tree.erase (loc ++ [name])).get? l = d.tree.get? l := by
  refine Tree.get?_erase_of_ne (child_ne_nil loc name) (fun rest hrest => ?_) hl
  rw [List.append_assoc]
  exact h.flat name rest hrest

/-- Deleting a file in the directory. -/
theorem erase (h : Enclosed s d loc) :
    Enclosed s { d with tree := d.tree.erase (loc ++ [name]) } loc := by
  refine h.edited (fun l hl => h.get?_erase_of_ne hl) fun node hnode => ?_
  rw [Tree.get?_erase_self (child_ne_nil loc name)] at hnode
  cases hnode

/-- A change elsewhere that keeps what paths lead to. -/
theorem of_keeps (h : Enclosed s d loc) (hk : d.tree.Keeps d'.tree) (hc : d'.cwd = d.cwd)
    (hb : ∀ l, Below loc l → d'.tree.get? l = d.tree.get? l) : Enclosed s d' loc := by
  have hchild : ∀ name, d'.tree.get? (loc ++ [name]) = d.tree.get? (loc ++ [name]) := fun name =>
    hb _ (below_child loc name)
  refine ⟨h.proper, Disk.locate_keeps hk hc h.locate, ?_, fun name node hnode => ?_,
    fun name node hnode => ?_, fun name rest hrest => ?_⟩
  · obtain ⟨mode, hmode⟩ := h.directory
    exact ⟨mode, hk.directory loc mode hmode⟩
  · exact h.plain name node ((hchild name).symm.trans hnode)
  · exact h.ends name node ((hchild name).symm.trans hnode)
  · rw [hb _ ⟨List.prefix_append _ _, by simp⟩]
    exact h.flat name rest hrest

/-- No directory but that of the store itself reaches down into it. -/
theorem not_below_child (h : Enclosed s d loc) {base : Location} (hne : base ≠ loc)
    (hd : (d.tree.get? base).any Node.isDirectory = true) (name : String) :
    ¬ Below loc (base ++ [name]) := by
  rintro ⟨hp, hself⟩
  rcases List.prefix_concat_iff.mp hp with heq | ⟨rest, rfl⟩
  · exact hself heq.symm
  · cases rest with
    | nil => exact hne (List.append_nil loc)
    | cons first rest =>
      by_cases hrest : rest = []
      · subst hrest
        obtain ⟨mode, hmode⟩ := Tree.directory_of_isDirectory hd
        cases h.ends first _ hmode
      · rw [h.flat first rest hrest] at hd
        cases hd

end Enclosed

namespace Settled

/-- It is enough that every entry is a regular file under a plain name. -/
theorem of_files (hproper : s.directory.Proper) (hlocate : d.locate true s.directory.text = .ok loc)
    (hdirectory : ∃ mode, d.tree.get? loc = some (.directory mode))
    (hfiles : ∀ name node, d.tree.get? (loc ++ [name]) = some node →
      node.isFile = true ∧ Path.IsPlain name ∧ name ≠ "..")
    (hflat : ∀ name rest, rest ≠ [] → d.tree.get? (loc ++ name :: rest) = none) :
    Settled s d loc where
  proper := hproper
  locate := hlocate
  directory := hdirectory
  plain name node hnode := (hfiles name node hnode).2
  ends name node hnode := Node.leadsOn_of_isFile (hfiles name node hnode).1
  flat := hflat
  files name node hnode := (hfiles name node hnode).1

/-- It is enough to look at the nodes that the tree lists. -/
theorem of_nodes (hproper : s.directory.Proper) (hlocate : d.locate true s.directory.text = .ok loc)
    (hdirectory : ∃ mode, d.tree.get? loc = some (.directory mode))
    (h : ∀ entry ∈ d.tree.nodes, Below loc entry.1 → ∃ name, entry.1 = loc ++ [name] ∧
      entry.2.isFile = true ∧ Path.IsPlain name ∧ name ≠ "..") : Settled s d loc := by
  refine of_files hproper hlocate hdirectory (fun name node hnode => ?_) fun name rest hrest => ?_
  · obtain ⟨other, heq, hother⟩ := h _ (Tree.mem_of_get? (by simp) hnode) (below_child loc name)
    obtain rfl : name = other := by simpa using heq
    exact hother
  · rw [Option.eq_none_iff_forall_ne_some]
    intro node hnode
    obtain ⟨other, heq, -⟩ := h _ (Tree.mem_of_get? (by simp) hnode)
      ⟨List.prefix_append _ _, by simp⟩
    simp [hrest] at heq

/-- Writing a file in the directory. -/
theorem set (h : Settled s d loc) (hn : Path.IsPlain name) (hup : name ≠ "..")
    (content : Files.Content) (mode : Nat) :
    Settled s { d with tree := d.tree.set (loc ++ [name]) (.file content mode) } loc where
  toEnclosed := h.toEnclosed.set hn hup content mode
  files other node hnode := by
    by_cases he : loc ++ [other] = loc ++ [name]
    · rw [he, Tree.get?_set_self (Enclosed.child_ne_nil loc name)] at hnode
      cases hnode
      rfl
    · exact h.files other node ((Tree.get?_set_of_ne he _).symm.trans hnode)

/-- Deleting a file in the directory. -/
theorem erase (h : Settled s d loc) :
    Settled s { d with tree := d.tree.erase (loc ++ [name]) } loc where
  toEnclosed := h.toEnclosed.erase
  files other node hnode := by
    by_cases he : loc ++ [other] = loc ++ [name]
    · rw [he, Tree.get?_erase_self (Enclosed.child_ne_nil loc name)] at hnode
      cases hnode
    · exact h.files other node ((h.get?_erase_of_ne he).symm.trans hnode)

end Settled

/-! ## 3. The host after some of the store's steps -/

/-- Log records may have been added to those of the earlier host, and the gate and the streams are
as they were. -/
structure Quiet (earlier host : Host) : Prop where
  gate : host.gate = earlier.gate
  console : host.console = earlier.console
  log : earlier.log <+: host.log

/-- The host is the earlier one after some steps of the store: the store is still enclosed, nothing
outside it has changed on the disk, log records may have been added, and the supplies of records and
time stamps may have been used. -/
structure Recorded (s : ErrorStore) (loc : Location) (earlier host : Host) : Prop
    extends Quiet earlier host where
  enclosed : Enclosed s host.disk loc
  outside : ∀ l, ¬ Below loc l → host.disk.tree.get? l = earlier.disk.tree.get? l

/-- The host is the earlier one after some steps of a store whose directory is not there. -/
structure Unwritten (earlier host : Host) : Prop extends Quiet earlier host where
  disk : host.disk = earlier.disk

variable {earlier host : Host} {path : Path}

theorem Quiet.refl (host : Host) : Quiet host host := ⟨rfl, rfl, List.prefix_refl _⟩

theorem Quiet.noted (h : Quiet earlier host) (level : Level) (message : String) :
    Quiet earlier (host.noted level message) :=
  { h with log := h.log.trans (List.prefix_append _ _) }

theorem Unwritten.refl (host : Host) : Unwritten host host := ⟨.refl host, rfl⟩

theorem Unwritten.noted (h : Unwritten earlier host) (level : Level) (message : String) :
    Unwritten earlier (host.noted level message) :=
  ⟨h.toQuiet.noted level message, h.disk⟩

namespace Recorded

theorem refl (h : Enclosed s host.disk loc) : Recorded s loc host host :=
  ⟨.refl host, h, fun _ _ => rfl⟩

theorem noted (h : Recorded s loc earlier host) (level : Level) (message : String) :
    Recorded s loc earlier (host.noted level message) :=
  ⟨h.toQuiet.noted level message, h.enclosed, h.outside⟩

theorem withDisk (h : Recorded s loc earlier host) {disk : Disk} (hs : Enclosed s disk loc)
    (ho : ∀ l, ¬ Below loc l → disk.tree.get? l = host.disk.tree.get? l) :
    Recorded s loc earlier { host with disk } :=
  { h with enclosed := hs, outside := fun l hl => (ho l hl).trans (h.outside l hl) }

/-- Writing to a file in the directory. -/
theorem write (h : Recorded s loc earlier host) {disk : Disk} {data : Text.Bytes}
    (hn : Path.IsPlain name) (hup : name ≠ "..")
    (hw : host.disk.write (s.directory.child name).text data = .ok disk) :
    Recorded s loc earlier { host with disk } := by
  obtain ⟨reached, hl, rfl | ⟨mode, rfl, -⟩⟩ := Disk.write_ok hw
  · exact h.withDisk h.enclosed fun _ _ => rfl
  · have hreached := h.enclosed.locate_child hn hup hl
    subst hreached
    refine h.withDisk (h.enclosed.set hn hup _ _) fun l hl => Tree.get?_set_of_ne ?_ _
    rintro rfl
    exact hl (below_child loc name)

/-- Deleting a file in the directory. -/
theorem unlink (h : Recorded s loc earlier host) {disk : Disk} (hn : Path.IsPlain name)
    (hup : name ≠ "..") (hu : host.disk.unlink (s.directory.child name).text = .ok disk) :
    Recorded s loc earlier { host with disk } := by
  obtain ⟨reached, node, hl, -, -, rfl⟩ := Disk.unlink_ok hu
  have hreached := h.enclosed.locate_child hn hup hl
  subst hreached
  refine h.withDisk h.enclosed.erase fun l hl => h.enclosed.get?_erase_of_ne ?_
  rintro rfl
  exact hl (below_child loc name)

end Recorded

/-! ## 4. The files of a record -/

/-- A path is the name of a file in the store's directory. -/
def IsEntry (s : ErrorStore) (path : Path) : Prop :=
  ∃ name, path = s.directory.child name ∧ Path.IsPlain name ∧ name ≠ ".."

theorem manifestPath_entry (s : ErrorStore) : IsEntry s s.manifestPath :=
  ⟨manifestName, rfl, by simp [Path.IsPlain, manifestName], by decide⟩

theorem statsPath_entry (s : ErrorStore) : IsEntry s s.statsPath :=
  ⟨statsName, rfl, by simp [Path.IsPlain, statsName], by decide⟩

/-- The file of a record is an entry of the store's directory, where the name of the operation can
be part of a file name. -/
theorem recordPath_entry {stamp : Json} {operation : String} (ho : '/' ∉ operation.toList) (n : Nat)
    {path : Path} (h : s.recordPath stamp operation (idOf n) = .ok path) : IsEntry s path := by
  unfold recordPath at h
  cases hm : Moment.ofStamp stamp with
  | error fault => rw [hm] at h; cases h
  | ok moment =>
    rw [hm] at h
    exact ⟨_, (Except.ok.inj h).symm, recordName_plain moment ho n⟩

theorem Enclosed.names_eq (h : Enclosed s d loc) :
    d.names s.directory.text = .ok (d.tree.children loc) := by
  obtain ⟨mode, hmode⟩ := h.directory
  simp [Disk.names, Disk.find_of_locate h.locate hmode, bind, Except.bind, Node.isDirectory]

/-- The names in the store's directory are entries of it. -/
theorem Enclosed.entry_of_mem_names (h : Enclosed s d loc)
    (hm : name ∈ (d.names s.directory.text).toOption.getD []) :
    IsEntry s (s.directory.child name) ∧ d.isDirectory (s.directory.child name) ≠ .ok true := by
  rw [h.names_eq] at hm
  obtain ⟨node, hnode⟩ := Tree.mem_children_iff.mp hm
  obtain ⟨hn, hup⟩ := h.plain name node hnode
  have hends := h.ends name node hnode
  refine ⟨⟨name, rfl, hn, hup⟩, fun hdir => ?_⟩
  obtain ⟨-, mode, hs⟩ := Disk.isDirectory_true_iff.mp hdir
  obtain ⟨reached, hl, hthere⟩ := Disk.stat_ok hs
  rw [h.locate_child hn hup hl, hnode] at hthere
  cases hthere
  cases hends

/-- What the rest of a pattern finds from chosen entries: the entries themselves, if nothing is left
of it, and nothing, if none was chosen. -/
theorem entry_of_selectRest {rest : List String} {chosen : List Path}
    {results : List (List Path)} (hentries : ∀ p ∈ chosen, IsEntry s p)
    (hshape : rest = [] ∨ chosen = [])
    (hresults : chosen.mapM (fun path => Files.Glob.select d path rest) = .ok results) :
    ∀ path ∈ results.flatten, IsEntry s path := by
  intro path hmem
  obtain ⟨paths, hpaths, hin⟩ := List.mem_flatten.mp hmem
  obtain ⟨p, hchosen, hselect⟩ := mem_of_mapM hresults hpaths
  rcases hshape with rfl | rfl
  · unfold Files.Glob.select at hselect
    cases hselect
    rw [List.mem_singleton.mp hin]
    exact hentries p hchosen
  · cases hchosen

/-- A pattern that begins with a component of its own describes entries of the directory only:
where more components follow, there is no directory in which they could. -/
theorem Enclosed.entry_of_select (h : Enclosed s d loc) {component : String} {rest : List String}
    (hstars : component ≠ "**") (hpattern : Files.Glob.isPattern component = true)
    {paths : List Path}
    (hp : Files.Glob.select d s.directory (component :: rest) = .ok paths) :
    ∀ path ∈ paths, IsEntry s path := by
  intro path hpath
  unfold Files.Glob.select at hp
  simp only [hstars, if_false, hpattern, if_true] at hp
  have hentry : ∀ p ∈ (((d.names s.directory.text).toOption.getD []).filter
      (Files.Glob.fits component)).map s.directory.child,
      IsEntry s p ∧ d.isDirectory p ≠ .ok true := by
    intro p hmem
    obtain ⟨name, hname, rfl⟩ := List.mem_map.mp hmem
    exact h.entry_of_mem_names (List.mem_filter.mp hname).1
  cases hr : rest.isEmpty with
  | true =>
    simp only [hr, if_true, bind, Except.bind, pure, Except.pure] at hp
    split at hp
    · cases hp
    · rename_i results hresults
      cases hp
      exact entry_of_selectRest (fun p hm => (hentry p hm).1) (.inl (List.isEmpty_iff.mp hr))
        hresults path hpath
  | false =>
    simp only [hr, Bool.false_eq_true, if_false, bind, Except.bind, pure, Except.pure] at hp
    split at hp
    · cases hp
    rename_i chosen hchosen
    have hnone : chosen = [] := by
      refine List.eq_nil_iff_forall_not_mem.mpr fun p hm => ?_
      obtain ⟨hin, hdir⟩ := mem_of_filterM hchosen hm
      exact (hentry p hin).2 hdir
    split at hp
    · cases hp
    · rename_i results hresults
      cases hp
      refine entry_of_selectRest (fun p hm => ?_) (.inr hnone) hresults path hpath
      rw [hnone] at hm
      cases hm

/-- The pattern for a record's files begins with a component that stands for any start. -/
theorem partsOf_pattern (id : String) : ∃ component rest,
    Path.partsOf ("*_" ++ id ++ ".json") = component :: rest ∧
      (∃ tail, component.toList = '*' :: '_' :: tail) ∧ component ≠ "**" ∧
      Files.Glob.isPattern component = true := by
  obtain ⟨tail, hchars⟩ : ∃ tail, ("*_" ++ id ++ ".json").toList = '*' :: '_' :: tail :=
    ⟨(id ++ ".json").toList, by simp⟩
  obtain ⟨piece, pieces, hsplit⟩ : ∃ piece pieces,
      Text.splitChars '/' ('*' :: '_' :: tail) = ('*' :: '_' :: piece) :: pieces := by
    cases ht : Text.splitChars '/' tail with
    | nil => exact ⟨[], [], by simp [Text.splitChars, ht]⟩
    | cons first others => exact ⟨first, others, by simp [Text.splitChars, ht]⟩
  have hl : (String.ofList ('*' :: '_' :: piece)).toList = '*' :: '_' :: piece :=
    String.toList_ofList
  have hne : ∀ other : String, other.toList.take 2 ≠ ['*', '_'] →
      String.ofList ('*' :: '_' :: piece) ≠ other := by
    rintro other ho rfl
    rw [hl] at ho
    exact ho rfl
  refine ⟨String.ofList ('*' :: '_' :: piece),
    (pieces.map String.ofList).filter fun part => part != "" && part != ".", ?_, ⟨piece, hl⟩, ?_,
    ?_⟩
  · have hkeep : (String.ofList ('*' :: '_' :: piece) != "" &&
        String.ofList ('*' :: '_' :: piece) != ".") = true := by
      rw [Bool.and_eq_true, bne_iff_ne, bne_iff_ne]
      exact ⟨hne "" (by decide), hne "." (by decide)⟩
    unfold Path.partsOf Text.splitAt
    rw [hchars, hsplit, List.map_cons, List.filter_cons, if_pos hkeep]
  · exact hne "**" (by decide)
  · unfold Files.Glob.isPattern
    rw [hl]
    rfl

/-- **The files of a record are entries of the store's directory.** -/
theorem Enclosed.entry_of_filesOf (h : Enclosed s d loc) {id : String} {paths : List Path}
    (hp : s.filesOf d id = .ok paths) : ∀ path ∈ paths, IsEntry s path := by
  obtain ⟨component, rest, hparts, -, hstars, hpattern⟩ := partsOf_pattern id
  unfold filesOf Files.Glob.paths at hp
  simp only [hparts] at hp
  split at hp
  · cases hp
  obtain ⟨there, -, hp⟩ := ok_of_bind hp
  cases there with
  | false =>
    cases hp
    intro path hm
    cases hm
  | true => exact h.entry_of_select hstars hpattern hp

/-! ## 5. A store whose directory is not there -/

/-- The store's directory is not there: its path leads nowhere, or not to a directory. -/
def Missing (s : ErrorStore) (d : Disk) : Prop :=
  ∀ loc, d.locate true s.directory.text = .ok loc →
    (d.tree.get? loc).any Node.isDirectory = false

/-- No name in the directory leads anywhere. -/
theorem Missing.locate_ne_ok (h : Missing s d) (hproper : s.directory.Proper) {followLast : Bool}
    (hn : Path.IsPlain name) (reached : Location) :
    d.locate followLast (s.directory.child name).text ≠ .ok reached := by
  intro hl
  obtain ⟨base, hbase, hdir⟩ := Disk.directory_of_locate_child hproper hn hl
  rw [h base hbase] at hdir
  cases hdir

/-- No file has a record's id. -/
theorem Missing.filesOf (h : Missing s d) {id : String} {paths : List Path}
    (hp : s.filesOf d id = .ok paths) : paths = [] := by
  obtain ⟨component, rest, hparts, -⟩ := partsOf_pattern id
  unfold ErrorStore.filesOf Files.Glob.paths at hp
  simp only [hparts] at hp
  split at hp
  · cases hp
  obtain ⟨there, hthere, hp⟩ := ok_of_bind hp
  cases there with
  | false =>
    cases hp
    rfl
  | true =>
    obtain ⟨-, mode, hs⟩ := Disk.isDirectory_true_iff.mp hthere
    obtain ⟨loc, hl, hnode⟩ := Disk.stat_ok hs
    have hno := h loc hl
    rw [hnode] at hno
    cases hno

/-! ## 6. Properties that the store upholds -/

/-- The property survives all that the store's steps do to the host: they write and delete the files
that the other property describes, they log, and they take from the supplies. -/
structure Upheld (s : ErrorStore) (own : Path → Prop) (P : Host → Prop) : Prop where
  write : ∀ host path data disk, P host → own path →
    host.disk.write path.text data = .ok disk → P { host with disk }
  unlink : ∀ host path disk, P host → own path →
    host.disk.unlink path.text = .ok disk → P { host with disk }
  noted : ∀ host level message, P host → P (host.noted level message)
  supplies : ∀ host recordsTaken clock, P host → P { host with recordsTaken, clock }
  manifest : own s.manifestPath
  stats : own s.statsPath
  recordPath : ∀ stamp operation n path, '/' ∉ operation.toList →
    s.recordPath stamp operation (idOf n) = .ok path → own path
  filesOf : ∀ host id paths, P host → s.filesOf host.disk id = .ok paths →
    ∀ path ∈ paths, own path

section Steps

variable {own : Path → Prop} {P : Host → Prop}

theorem note_keeps (h : Upheld s own P) (level : Level) (message : String) :
    (Run.note level message).Keeps P := fun host hp => h.noted host level message hp

/-- Writing a document at a path that can be one. -/
def writeDocument (path : Path) (document : Json) : Run Unit := do
  let host ← get
  match host.disk.write path.text (Text.encode (document.writableText (some 2))) with
  | .ok disk => do
    set { host with disk }
    if !document.isWritable then throw digitsFault
  | .error e =>
    Run.note .error ("Failed to save " ++ path.name ++ ": " ++ (e.fault path.text).message)

theorem save_eq (path : Path) (document : Json) :
    save path document =
      match Disk.pathFault? path.text with
      | some fault => throw fault
      | none => writeDocument path document := by
  unfold save
  cases Disk.pathFault? path.text <;> rfl

theorem save_keeps (h : Upheld s own P) (ho : own path) (document : Json) :
    (save path document).Keeps P := by
  rw [save_eq]
  split
  · exact Run.Keeps.throw _
  · refine Run.Keeps.get_bind fun host hp => ?_
    split
    · rename_i disk hw
      have hafter := h.write host path _ disk hp ho hw
      rw [Run.exec_bind_ok (Run.exec_set _ host)]
      cases document.isWritable <;> exact hafter
    · exact note_keeps h _ _ host hp

theorem fetch_keeps (h : Upheld s own P) (path : Path) (shape : Shape) :
    (fetch path shape).Keeps P := by
  refine Run.Keeps.get.bind fun host => ?_
  split
  · split
    · exact (Run.Keeps.throw _).bind fun _ => (note_keeps h _ _).bind fun _ => Run.Keeps.pure _
    · exact (note_keeps h _ _).bind fun _ => Run.Keeps.pure _
  · exact Run.Keeps.pure _
  · split
    · exact Run.Keeps.pure _
    · exact (note_keeps h _ _).bind fun _ => Run.Keeps.pure _

theorem manifest_keeps (h : Upheld s own P) : s.manifest.Keeps P :=
  (fetch_keeps h _ _).bind fun _ => Run.Keeps.pure _

theorem stats_keeps (h : Upheld s own P) : s.stats.Keeps P :=
  (fetch_keeps h _ _).bind fun _ => Run.Keeps.pure _

theorem readClock_exec (host : Host) :
    readClock.exec host = (.ok host.clock.read.1, { host with clock := host.clock.read.2 }) := rfl

theorem freshId_exec (host : Host) :
    freshId.exec host =
      (.ok (idOf (host.recordsTaken + 1)), { host with recordsTaken := host.recordsTaken + 1 }) :=
  rfl

theorem readClock_keeps (h : Upheld s own P) : readClock.Keeps P :=
  Run.Keeps.get_bind fun host hp => h.supplies host host.recordsTaken _ hp

theorem freshId_keeps (h : Upheld s own P) : freshId.Keeps P :=
  Run.Keeps.get_bind fun host hp => h.supplies host _ host.clock hp

theorem makeRecord_keeps (h : Upheld s own P) (fault : Fault) (report : Report) :
    (makeRecord fault report).Keeps P :=
  (readClock_keeps h).bind fun _ => (freshId_keeps h).bind fun _ =>
    (Run.Keeps.ofExcept _).bind fun _ => Run.Keeps.pure _

theorem updateStats_keeps (h : Upheld s own P) (stamp : Json)
    (operation errorType resultKind : String) :
    (s.updateStats stamp operation errorType resultKind).Keeps P :=
  (stats_keeps h).bind fun _ => (Run.Keeps.ofExcept _).bind fun _ =>
    (Run.Keeps.ofExcept _).bind fun _ => (Run.Keeps.ofExcept _).bind fun _ =>
      (readClock_keeps h).bind fun _ => save_keeps h h.stats _

theorem deleteAll_keeps (h : Upheld s own P) : ∀ {paths : List Path}, (∀ path ∈ paths, own path) →
    (deleteAll paths).Keeps P
  | [], _ => Run.Keeps.pure _
  | path :: rest, hown => by
    have hrest : ∀ path ∈ rest, own path := fun p hm => hown p (List.mem_cons_of_mem _ hm)
    have ih := deleteAll_keeps h hrest
    refine Run.Keeps.get_bind fun host hp => ?_
    cases hu : host.disk.unlink path.text with
    | error e => exact ((note_keeps h _ _).bind fun _ => ih) host hp
    | ok disk =>
      have hafter := h.unlink host path disk hp (hown path List.mem_cons_self) hu
      exact (ih.bind fun _ => Run.Keeps.pure _) _ hafter

theorem deleteRecords_keeps (h : Upheld s own P) : ∀ entries : List ManifestEntry,
    (s.deleteRecords entries).Keeps P
  | [] => Run.Keeps.pure _
  | entry :: rest => by
    refine (Run.Keeps.query _).bind_knowing (fun host paths after hp hf => ?_) fun paths hf =>
      (deleteAll_keeps h hf).bind fun _ => deleteRecords_keeps h rest
    rw [Run.exec_query] at hf
    exact h.filesOf host _ paths hp (congrArg Prod.fst hf)

theorem prune_keeps (h : Upheld s own P) : s.prune.Keeps P := by
  refine (manifest_keeps h).bind fun entries => ?_
  split
  · exact Run.Keeps.pure _
  · exact (deleteRecords_keeps h _).bind fun _ => save_keeps h h.manifest _

theorem makeRecord_errorId {fault : Fault} {report : Report} {r : ErrorRecord} {after : Host}
    (h : (makeRecord fault report).exec host = (.ok r, after)) :
    r.errorId.plainText = idOf (host.recordsTaken + 1) := by
  unfold makeRecord at h
  rw [Run.exec_bind_ok (readClock_exec host), Run.exec_bind_ok (freshId_exec _)] at h
  have htell := Run.exec_ofExcept fault.tell
  cases ht : fault.tell with
  | error trouble =>
    rw [ht] at htell h
    rw [Run.exec_bind_error (htell _)] at h
    cases h
  | ok message =>
    rw [ht] at htell h
    rw [Run.exec_bind_ok (htell _)] at h
    cases h
    rfl

/-- **Recording a failure keeps what the store's steps uphold.** -/
theorem record_keeps (h : Upheld s own P) (fault : Fault) {report : Report}
    (ho : '/' ∉ report.operation.toList) : (s.record fault report).Keeps P := by
  refine (makeRecord_keeps h fault report).bind_knowing
    (Q := fun r => ∃ n, r.errorId.plainText = idOf n)
    (fun host r after _ hr => ⟨_, makeRecord_errorId hr⟩) fun r hid => ?_
  obtain ⟨n, hid⟩ := hid
  refine (Run.Keeps.ofExcept _).bind_knowing (Q := own) (fun host path after _ hp => ?_)
    fun path hown => ?_
  · rw [Run.exec_ofExcept, hid] at hp
    exact h.recordPath _ _ n path ho (congrArg Prod.fst hp)
  · exact (save_keeps h hown _).bind fun _ => (manifest_keeps h).bind fun _ =>
      (save_keeps h h.manifest _).bind fun _ => (updateStats_keeps h _ _ _ _).bind fun _ =>
        (prune_keeps h).bind fun _ => (note_keeps h _ _).bind fun _ => Run.Keeps.pure _

end Steps

/-- The store's steps do not touch the gate and the streams, and take back no log record. -/
theorem upheld_quiet (s : ErrorStore) (earlier : Host) :
    Upheld s (fun _ => True) (Quiet earlier) where
  write := fun _ _ _ _ h _ _ => { h with }
  unlink := fun _ _ _ h _ _ => { h with }
  noted := fun _ level message h => h.noted level message
  supplies := fun _ _ _ h => { h with }
  manifest := trivial
  stats := trivial
  recordPath := fun _ _ _ _ _ _ => trivial
  filesOf := fun _ _ _ _ _ _ _ => trivial

/-- **What the store's steps do to an enclosed store**, and to nothing outside it. -/
theorem upheld_recorded : Upheld s (IsEntry s) (Recorded s loc earlier) where
  write := fun host path data disk h hp hw => by
    obtain ⟨name, rfl, hn, hup⟩ := hp
    exact h.write hn hup hw
  unlink := fun host path disk h hp hu => by
    obtain ⟨name, rfl, hn, hup⟩ := hp
    exact h.unlink hn hup hu
  noted := fun _ level message h => h.noted level message
  supplies := fun _ _ _ h => { h with }
  manifest := manifestPath_entry s
  stats := statsPath_entry s
  recordPath := fun _ _ n _ ho hp => recordPath_entry ho n hp
  filesOf := fun _ _ _ h hp => h.enclosed.entry_of_filesOf hp

/-- Through a directory in the store's an id in the manifest leads anywhere: pruning deletes a file
that has nothing to do with the store. -/
theorem prune_follows_directories :
    let s : ErrorStore := { directory := ⟨.root, ["errors"]⟩, maxErrors := 0 }
    let manifest := "[\x7b\"timestamp\": 1, \"error_id\": \"x/../../temp/kept\"\x7d]"
    let host : Host := {
      disk := { tree := ⟨[(["temp"], .directory 0o755),
        (["temp", "kept.json"], .file (.bytes []) 0o644), (["errors"], .directory 0o755),
        (["errors", "a_x"], .directory 0o755),
        (["errors", "manifest.json"], .file (.bytes (Text.encode manifest)) 0o644)]⟩ } }
    (s.prune.exec host).2.disk.tree.children ["temp"] = [] := by
  decide +kernel

/-- **The store's steps change nothing where its directory is not there.** -/
theorem upheld_unwritten (hproper : s.directory.Proper) (hmissing : Missing s earlier.disk) :
    Upheld s (IsEntry s) (Unwritten earlier) where
  write := fun host path data disk h hp hwrite => by
    obtain ⟨name, rfl, hn, -⟩ := hp
    rw [h.disk] at hwrite
    obtain ⟨reached, hl, -⟩ := Disk.write_ok hwrite
    exact absurd hl (hmissing.locate_ne_ok hproper hn reached)
  unlink := fun host path disk h hp hunlink => by
    obtain ⟨name, rfl, hn, -⟩ := hp
    rw [h.disk] at hunlink
    obtain ⟨reached, -, hl, -⟩ := Disk.unlink_ok hunlink
    exact absurd hl (hmissing.locate_ne_ok hproper hn reached)
  noted := fun _ level message h => h.noted level message
  supplies := fun _ _ _ h => { h with }
  manifest := manifestPath_entry s
  stats := statsPath_entry s
  recordPath := fun _ _ n _ ho hp => recordPath_entry ho n hp
  filesOf := fun _ _ _ h hp => by
    rw [h.disk] at hp
    rw [hmissing.filesOf hp]
    exact nofun

end ErrorStore

end Dissect
