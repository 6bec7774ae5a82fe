/-
# The lifetime of a disposable file

A disposable file is made at a place where nothing was.  From then on until it is discarded, the
disk is what it was but for that place (`SameBut`), whatever a tool does with the path it is given:
the tool can take the file away and can put a directory there, and nothing else.  So after the file
is discarded the disk is what it was, with one exception: a directory that the tool put there stays,
and one warning says so (`discard_of_vacant`, `discard_of_file`, `discard_of_directory`).
-/
import Dissect.Disposable
import Dissect.Proofs.FileOperations
import Dissect.Proofs.ToolCode

namespace Dissect

open Files (Disk Location Node Tree Errno)

/-! ## 1. A disk that differs at one place -/

namespace Files

/-- The nodes of the disks are the same. -/
def SameNodes (base d : Disk) : Prop := ∀ l, d.tree.get? l = base.tree.get? l

/-- The disk is the base but for one place, at which there is nothing, a file or a directory. -/
structure SameBut (base : Disk) (loc : Location) (d : Disk) : Prop where
  others : ∀ l, l ≠ loc → d.tree.get? l = base.tree.get? l
  place : ∀ node, d.tree.get? loc = some node → node.isFile = true ∨ ∃ mode, node = .directory mode
  cwd : d.cwd = base.cwd

/-- A path leads to a place of the disk where nothing is. -/
structure LeadsToVacant (base : Disk) (path : String) (loc : Location) : Prop where
  locate : base.locate false path = .ok loc
  vacant : base.tree.get? loc = none

variable {base d d' : Disk} {loc : Location} {path : String}

namespace SameBut

theorem keeps (h : SameBut base loc d) (hv : base.tree.get? loc = none) :
    base.tree.Keeps d.tree := by
  refine Tree.Keeps.of_change (fun node hn => ?_) (fun target hn => ?_) h.others
  · rw [hv] at hn
    cases hn
  · rcases h.place _ hn with hfile | ⟨mode, hdir⟩
    · cases hfile
    · cases hdir

/-- The path still leads to the place. -/
theorem locate (h : SameBut base loc d) (hv : LeadsToVacant base path loc) :
    d.locate false path = .ok loc :=
  Disk.locate_keeps (h.keeps hv.vacant) h.cwd hv.locate

/-- A node put at the place. -/
theorem set (h : SameBut base loc d) (hv : base.tree.get? loc = none) {node : Node}
    (hn : node.isFile = true ∨ ∃ mode, node = .directory mode) :
    SameBut base loc { d with tree := d.tree.set loc node } where
  others := fun l hl => by
    rw [Tree.get?_set_of_ne hl]
    exact h.others l hl
  place := fun found hf => by
    rw [Tree.get?_set_self (Tree.ne_nil_of_vacant hv)] at hf
    cases hf
    exact hn
  cwd := h.cwd

/-- With the place cleared, the nodes are those of the base. -/
theorem sameNodes_erase (h : SameBut base loc d) (hw : base.tree.WellFormed)
    (hv : base.tree.get? loc = none) : SameNodes base { d with tree := d.tree.erase loc } := by
  intro l
  show (d.tree.erase loc).get? l = _
  have hroot := Tree.ne_nil_of_vacant hv
  by_cases hl : l = loc
  · rw [hl, Tree.get?_erase_self hroot, hv]
  · rw [Tree.get?_erase_of_ne hroot (fun rest hrest => ?_) hl, h.others l hl]
    rw [h.others _ (by simpa using hrest)]
    exact hw.vacant_below (by rw [hv]; rfl) hrest

theorem of_sameNodes (h : SameNodes base d) (hv : base.tree.get? loc = none)
    (hc : d.cwd = base.cwd) : SameBut base loc d where
  others := fun l _ => h l
  place := fun node hn => by
    rw [h loc, hv] at hn
    cases hn
  cwd := hc

/-- Removing the file leaves the disk the same but for its place. -/
theorem unlink (h : SameBut base loc d) (hw : base.tree.WellFormed)
    (hv : LeadsToVacant base path loc) (hu : d.unlink path = .ok d') : SameBut base loc d' := by
  obtain ⟨reached, node, hl, -, -, rfl⟩ := Disk.unlink_ok hu
  rw [h.locate hv] at hl
  cases hl
  exact of_sameNodes (h.sameNodes_erase hw hv.vacant) hv.vacant h.cwd

/-- So does making a directory in its place. -/
theorem makeDirectory (h : SameBut base loc d) (hv : LeadsToVacant base path loc)
    (hm : d.makeDirectory path = .ok d') : SameBut base loc d' := by
  obtain ⟨reached, hl, -, -, rfl⟩ := Disk.makeDirectory_ok hm
  rw [h.locate hv] at hl
  cases hl
  exact h.set hv.vacant (.inr ⟨_, rfl⟩)

end SameBut

end Files

/-! ## 2. The path of the file -/

namespace Path

theorem mem_foldl_collapseStep {part : String} : ∀ {parts above : List String},
    part ∈ parts.foldl collapseStep above → part ∈ above ∨ part ∈ parts ∧ part ≠ "." ∧ part ≠ ".."
  | [], _, h => .inl h
  | first :: rest, above, h => by
    have hfold : part ∈ rest.foldl collapseStep (collapseStep above first) := h
    rcases mem_foldl_collapseStep hfold with habove | ⟨hrest, hdots⟩
    · unfold collapseStep at habove
      split at habove
      · exact .inl (List.mem_of_mem_drop habove)
      split at habove
      · exact .inl habove
      rename_i hup hdot
      rcases List.mem_cons.mp habove with rfl | hold
      · exact .inr ⟨List.mem_cons_self, hdot, hup⟩
      · exact .inl hold
    · exact .inr ⟨List.mem_cons_of_mem _ hrest, hdots⟩

/-- What is left of components is some of them, without dots. -/
theorem mem_collapse {part : String} {parts : List String} (h : part ∈ collapse parts) :
    part ∈ parts ∧ part ≠ "." ∧ part ≠ ".." := by
  rcases mem_foldl_collapseStep (List.mem_reverse.mp h) with hnil | hpart
  · cases hnil
  · exact hpart

end Path

namespace Files

/-- The disk's tree is one, and its working directory is a list of names. -/
structure Disk.WellFormed (d : Disk) : Prop where
  tree : d.tree.WellFormed
  cwd : ∀ name ∈ d.cwd, Path.IsPlain name

/-- The absolute form of a proper path is proper. -/
theorem Disk.absolute_proper {d : Disk} (hd : d.WellFormed) {p : Path} (hp : p.Proper) :
    (d.absolute p).Proper := by
  intro part hmem
  have hparts := (Path.mem_collapse hmem).1
  split at hparts
  · exact hp part hparts
  · rcases List.mem_append.mp hparts with hcwd | hown
    · exact hd.cwd part hcwd
    · exact hp part hown

theorem Disk.isAbsolute_absolute (d : Disk) (p : Path) : (d.absolute p).isAbsolute = true := by
  unfold absolute
  cases hp : p.isAbsolute with
  | true => exact hp
  | false => rfl

end Files

namespace Disposable

/-- The name of the disposable class file with the given number. -/
def fileName (n : Nat) : String := nameStart ++ String.ofList (nameDigits 8 n) ++ ".class"

theorem not_slash_of_mem_nameDigits : ∀ {width n : Nat}, '/' ∉ nameDigits width n
  | 0, _ => by simp [nameDigits]
  | width + 1, n => by
    have ih : '/' ∉ nameDigits width (n / nameAlphabet.length) := not_slash_of_mem_nameDigits
    have hlast : nameAlphabet[n % nameAlphabet.length]?.getD '_' ≠ '/' := by
      cases hc : nameAlphabet[n % nameAlphabet.length]? with
      | none => decide
      | some c =>
        have hmem := List.mem_of_getElem? hc
        have hall : nameAlphabet.all (· != '/') = true := by decide
        exact bne_iff_ne.mp (List.all_eq_true.mp hall c hmem)
    simp only [nameDigits, List.mem_append, List.mem_singleton, not_or]
    exact ⟨ih, Ne.symm hlast⟩

/-- The name with the given number and suffix. -/
def named (suffix : String) (n : Nat) : String :=
  nameStart ++ String.ofList (nameDigits 8 n) ++ suffix

/-- The name starts with a letter, so it is none of those that paths give a meaning of their
own. -/
theorem toList_named (suffix : String) (n : Nat) : (named suffix n).toList =
    'c' :: ("lassview_".toList ++ nameDigits 8 n ++ suffix.toList) := by
  simp [named, nameStart]

theorem named_plain {suffix : String} (hs : '/' ∉ suffix.toList) (n : Nat) :
    Path.IsPlain (named suffix n) := by
  have hl := toList_named suffix n
  refine ⟨?_, ?_, ?_⟩
  · intro he
    rw [he] at hl
    cases hl
  · intro he
    rw [he] at hl
    cases hl
  · rw [hl]
    simp [not_slash_of_mem_nameDigits, hs]

theorem named_ne_up (suffix : String) (n : Nat) : named suffix n ≠ ".." := by
  intro he
  have hl := toList_named suffix n
  rw [he] at hl
  cases hl

theorem fileName_plain (n : Nat) : Path.IsPlain (fileName n) := named_plain (by decide) n

theorem fileName_ne_up (n : Nat) : fileName n ≠ ".." := named_ne_up ".class" n

/-- The path of a disposable file is a name in its directory. -/
theorem candidate_eq {directory : Path} (habs : directory.isAbsolute = true) {suffix : String}
    (hs : '/' ∉ suffix.toList) (n : Nat) :
    candidate directory suffix n = (directory.child (named suffix n)).text := by
  have hn := named_plain hs n
  unfold candidate
  by_cases hne : directory.parts = []
  · rw [Path.child_plain _ hn]
    obtain ⟨anchor, parts⟩ := directory
    simp only at hne
    subst hne
    cases anchor with
    | relative => cases habs
    | root => simp [Path.text, Anchor.text, Text.join, named, String.append_assoc]
    | doubleRoot => simp [Path.text, Anchor.text, Text.join, named, String.append_assoc]
  · rw [Files.Disk.text_child hne hn]
    simp [hne, named, String.append_assoc]

theorem claim_ok {disk disk' : Disk} {directory : Path} {suffix path : String} {next : Nat} :
    ∀ {attempts n : Nat}, claim disk directory suffix attempts n = .ok (disk', path, next) →
      ∃ k, n ≤ k ∧ next = k + 1 ∧ path = candidate directory suffix k ∧
        disk.create path = .ok disk'
  | 0, _, h => by cases h
  | attempts + 1, n, h => by
    unfold claim at h
    cases hp : Disk.pathFault? (candidate directory suffix n) with
    | some fault => simp [hp] at h
    | none =>
      simp only [hp] at h
      cases hc : disk.create (candidate directory suffix n) with
      | ok made =>
        simp only [hc] at h
        cases h
        exact ⟨n, Nat.le_refl n, rfl, rfl, hc⟩
      | error e =>
        simp only [hc] at h
        cases e with
        | «exists» =>
          obtain ⟨k, hk, hrest⟩ := claim_ok h
          exact ⟨k, Nat.le_of_succ_le hk, hrest⟩
        | _ => cases h

/-! ## 3. Making the file -/

variable {host after : Host} {data : Text.Bytes} {directory : Option Path} {loc : Location}

/-- The directory in which a disposable file is made. -/
def directoryFor (host : Host) (directory : Option Path) : Path :=
  host.disk.absolute (directory.getD (Path.ofText host.systemTemp))

theorem directoryFor_proper (hd : host.disk.WellFormed)
    (hp : ∀ path, directory = some path → path.Proper) : (directoryFor host directory).Proper := by
  refine Disk.absolute_proper hd ?_
  cases directory with
  | none => exact Path.ofText_proper _
  | some path => exact hp path rfl

/-- A fresh file: its path leads to a place where nothing was, in its directory, and the disk is the
same but for that place. -/
theorem claim_spec {disk : Disk} {path : String} {next : Nat} (hd : host.disk.WellFormed)
    (hp : ∀ path, directory = some path → path.Proper)
    (h : claim host.disk (directoryFor host directory) ".class" maxAttempts host.namesTaken =
      .ok (disk, path, next)) :
    ∃ n loc, path = ((directoryFor host directory).child (fileName n)).text ∧
      Path.ofText path = (directoryFor host directory).child (fileName n) ∧
      Files.LeadsToVacant host.disk path loc ∧
      disk = { host.disk with tree := host.disk.tree.set loc (.file (.bytes []) 0o600) } := by
  have hdir := directoryFor_proper hd hp
  obtain ⟨n, -, -, hcandidate, hcreate⟩ := claim_ok h
  have habs : (directoryFor host directory).isAbsolute = true := Disk.isAbsolute_absolute _ _
  have hpath : path = ((directoryFor host directory).child (fileName n)).text :=
    hcandidate.trans (candidate_eq habs (by decide) n)
  have hchild := hdir.child (fileName_plain n)
  have hparts : ((directoryFor host directory).child (fileName n)).parts ≠ [] := by
    rw [Path.child_plain _ (fileName_plain n)]
    simp
  have hend : path.toList.getLast? ≠ some '/' := by
    rw [hpath]
    exact Path.getLast?_text_ne hchild hparts
  obtain ⟨loc, hl, hv, -, hdisk⟩ := Disk.create_ok hend hcreate
  exact ⟨n, loc, hpath, by rw [hpath, Path.ofText_text hchild hparts], ⟨hl, hv⟩, hdisk⟩

/-- A fresh file is there, and its disk is the same but for its place. -/
theorem sameBut_set (hv : host.disk.tree.get? loc = none) (bytes : Text.Bytes) (mode : Nat) :
    Files.SameBut host.disk loc
      { host.disk with tree := host.disk.tree.set loc (.file (.bytes bytes) mode) } :=
  (Files.SameBut.of_sameNodes (fun _ => rfl) hv rfl).set hv (.inl rfl)

theorem fill_fails {fault : Fault} (h : host.openFault = some fault) (path : String)
    (data : Text.Bytes) :
    (fill path (.bytes data)).exec host = (.error fault.afterRaise, host) := by
  unfold fill
  rw [Run.exec_bind_ok (Run.exec_get host), h]
  rfl

theorem fill_exec {disk : Disk} {path : String} (h : host.openFault = none)
    (hw : host.disk.write path data = .ok disk) :
    (fill path (.bytes data)).exec host = (.ok (), { host with disk }) := by
  unfold fill
  rw [Run.exec_bind_ok (Run.exec_get host), h]
  simp only [bytesOf]
  rw [Run.exec_bind_ok (Run.exec_ofExcept (.ok data) host), Run.exec_changeDisk, hw]
  simp only [Errno.name, h]

/-- Makes a disposable file, given how a new file is filled. -/
def createBy (fill : String → Run Unit) (directory : Option Path) (suffix : String) :
    Run Disposable := do
  let host ← get
  match claim host.disk (directoryFor host directory) suffix maxAttempts host.namesTaken with
  | .error fault => throw (recast createFault fault)
  | .ok (disk, path, namesTaken) => do
    set { host with disk, namesTaken }
    let handle : Disposable := { path := Path.ofText path }
    match ← Run.attempt (fill path) with
    | .ok () => return handle
    | .error fault => do
      if fault.isA .osError then
        modify handle.discard
        throw (writeFault path fault)
      else throw fault

theorem create_eq_createBy (data : Value) (directory : Option Path) (suffix : String) :
    create data directory suffix = createBy (fill · data) directory suffix := rfl

theorem createBy_exec (fill : String → Run Unit) (directory : Option Path) (suffix : String)
    (host : Host) :
    (createBy fill directory suffix).exec host =
      match claim host.disk (directoryFor host directory) suffix maxAttempts host.namesTaken with
      | .error fault => (.error (recast createFault fault), host)
      | .ok (disk, path, namesTaken) =>
        let handle : Disposable := { path := Path.ofText path }
        match (fill path).exec { host with disk, namesTaken } with
        | (.ok (), filled) => (.ok handle, filled)
        | (.error fault, filled) =>
          if fault.isA .osError then (.error (writeFault path fault), handle.discard filled)
          else (.error fault, filled) := by
  unfold createBy
  rw [Run.exec_bind_ok (Run.exec_get host)]
  cases claim host.disk (directoryFor host directory) suffix maxAttempts host.namesTaken with
  | error fault => rfl
  | ok made =>
    obtain ⟨disk, path, namesTaken⟩ := made
    simp only
    rw [Run.exec_bind_ok (Run.exec_set _ host), Run.exec_bind_ok (Run.exec_attempt _ _)]
    cases hf : (fill path).exec { host with disk, namesTaken } with
    | mk result filled =>
      cases result with
      | ok _ => rfl
      | error fault =>
        simp only
        cases hk : fault.isA .osError with
        | true => rfl
        | false => rfl

theorem create_exec (data : Text.Bytes) (directory : Option Path) (host : Host) :
    (create (.bytes data) directory).exec host =
      match claim host.disk (directoryFor host directory) ".class" maxAttempts host.namesTaken with
      | .error fault => (.error (recast createFault fault), host)
      | .ok (disk, path, namesTaken) =>
        let handle : Disposable := { path := Path.ofText path }
        match (fill path (.bytes data)).exec { host with disk, namesTaken } with
        | (.ok (), filled) => (.ok handle, filled)
        | (.error fault, filled) =>
          if fault.isA .osError then (.error (writeFault path fault), handle.discard filled)
          else (.error fault, filled) :=
  createBy_exec (fill · (.bytes data)) directory ".class" host

/-- A file that was filled was written, by a system that could open it. -/
theorem fill_ok {path : String} (h : (fill path (.bytes data)).exec host = (.ok (), after)) :
    ∃ disk, host.disk.write path data = .ok disk ∧ after = { host with disk } := by
  rcases Option.eq_none_or_eq_some host.openFault with ho | ⟨fault, ho⟩
  · cases hw : host.disk.write path data with
    | ok disk =>
      rw [fill_exec ho hw] at h
      cases h
      exact ⟨disk, rfl, rfl⟩
    | error e =>
      unfold fill at h
      rw [Run.exec_bind_ok (Run.exec_get host), ho] at h
      simp only [bytesOf] at h
      rw [Run.exec_bind_ok (Run.exec_ofExcept (.ok data) host), Run.exec_changeDisk, hw] at h
      cases h
  · rw [fill_fails ho] at h
    cases h

/-- The name of a disposable file ends its path. -/
theorem getLast?_candidate (directory : Path) (n : Nat) :
    (candidate directory ".class" n).toList.getLast? ≠ some '/' := by
  have hend : ".class".toList.getLast? = some 's' := by decide
  unfold candidate
  rw [String.toList_append, List.getLast?_append, hend]
  simp

/-- A file that is made was claimed and then filled. -/
theorem create_filled {resource : Disposable}
    (h : (create (.bytes data) directory).exec host = (.ok resource, after)) :
    ∃ disk path namesTaken,
      claim host.disk (directoryFor host directory) ".class" maxAttempts host.namesTaken =
        .ok (disk, path, namesTaken) ∧
      (fill path (.bytes data)).exec { host with disk, namesTaken } = (.ok (), after) ∧
      resource = { path := Path.ofText path } := by
  rw [create_exec] at h
  cases hc : claim host.disk (directoryFor host directory) ".class" maxAttempts host.namesTaken with
  | error fault => rw [hc] at h; cases h
  | ok made =>
    obtain ⟨disk, path, namesTaken⟩ := made
    rw [hc] at h
    simp only at h
    cases hf : (fill path (.bytes data)).exec { host with disk, namesTaken } with
    | mk result filled =>
      rw [hf] at h
      cases result with
      | error fault =>
        simp only at h
        split at h <;> cases h
      | ok _ =>
        cases h
        exact ⟨disk, path, namesTaken, rfl, hf, rfl⟩

/-- **A disposable file that is made** is a name in its directory, its path leads to a place where
nothing was, and the host is the same but for that place, which holds the data, and the supply of
names.  Without the place the tree is the same as before. -/
theorem create_places {resource : Disposable} (hd : host.disk.WellFormed)
    (hp : ∀ path, directory = some path → path.Proper)
    (h : (create (.bytes data) directory).exec host = (.ok resource, after)) :
    ∃ n loc disk namesTaken,
      resource = { path := (directoryFor host directory).child (fileName n) } ∧
      Files.LeadsToVacant host.disk resource.path.text loc ∧ Files.SameBut host.disk loc disk ∧
      disk.tree.get? loc = some (.file (.bytes data) 0o600) ∧
      disk.tree.erase loc = host.disk.tree.erase loc ∧
      after = { host with disk, namesTaken } := by
  obtain ⟨claimed, path, namesTaken, hclaim, hfill, rfl⟩ := create_filled h
  obtain ⟨n, loc, hpath, hof, hv, rfl⟩ := claim_spec hd hp hclaim
  have hne := Tree.ne_nil_of_vacant hv.vacant
  have hempty : (host.disk.tree.set loc (.file (.bytes []) 0o600)).get? loc = _ :=
    Tree.get?_set_self hne _
  have hlocate := Disk.locate_true ((sameBut_set hv.vacant [] 0o600).locate hv) fun target => by
    rw [hempty]
    simp
  obtain ⟨disk, hwrite, rfl⟩ := fill_ok hfill
  have hwritten := hwrite.symm.trans (Disk.write_file hlocate hempty)
  cases hwritten
  refine ⟨n, loc, _, namesTaken, by rw [hof], ?_, ?_, ?_, ?_, rfl⟩
  · rw [hof, ← hpath]
    exact hv
  · exact (sameBut_set hv.vacant [] 0o600).set hv.vacant (.inl rfl)
  · exact Tree.get?_set_self hne _
  · exact (Tree.erase_set _ loc _).trans (Tree.erase_set _ loc _)

theorem create_ok {resource : Disposable} (hd : host.disk.WellFormed)
    (hp : ∀ path, directory = some path → path.Proper)
    (h : (create (.bytes data) directory).exec host = (.ok resource, after)) :
    ∃ n loc disk namesTaken,
      resource = { path := (directoryFor host directory).child (fileName n) } ∧
      Files.LeadsToVacant host.disk resource.path.text loc ∧ Files.SameBut host.disk loc disk ∧
      after = { host with disk, namesTaken } := by
  obtain ⟨n, loc, disk, namesTaken, hresource, hv, hs, -, -, hafter⟩ := create_places hd hp h
  exact ⟨n, loc, disk, namesTaken, hresource, hv, hs, hafter⟩

/-- **Making a file puts nothing in the way of a path**: on any disk, every directory and every link
is still there, no link is new, and nothing else is denied. -/
theorem create_keeps_paths {resource : Disposable}
    (h : (create (.bytes data) directory).exec host = (.ok resource, after)) :
    host.disk.tree.Keeps after.disk.tree ∧ after.disk.cwd = host.disk.cwd ∧
      after.disk.denied = host.disk.denied := by
  obtain ⟨claimed, path, namesTaken, hclaim, hfill, -⟩ := create_filled h
  obtain ⟨n, -, -, rfl, hcreate⟩ := claim_ok hclaim
  obtain ⟨loc, -, hvacant, -, hclaimed⟩ := Disk.create_ok (getLast?_candidate _ n) hcreate
  have hmade : host.disk.tree.Keeps claimed.tree := by
    rw [hclaimed]
    exact Tree.Keeps.set_file (Tree.ne_nil_of_vacant hvacant) [] 0o600
      fun node hn => by rw [hvacant] at hn; cases hn
  have hcwd : claimed.cwd = host.disk.cwd := by rw [hclaimed]
  have hdenied : claimed.denied = host.disk.denied := by rw [hclaimed]
  obtain ⟨disk, hwrite, rfl⟩ := fill_ok hfill
  obtain ⟨written, -, rfl | ⟨mode, rfl, hwhere⟩⟩ := Disk.write_ok hwrite
  · exact ⟨hmade, hcwd, hdenied⟩
  · refine ⟨hmade.trans (Tree.Keeps.set_file ?_ data mode fun node hn => ?_), hcwd, hdenied⟩
    · rcases hwhere with ⟨hnone, -⟩ | ⟨content, hfile⟩
      · exact Tree.ne_nil_of_vacant hnone
      · rintro rfl
        cases hfile
    · rcases hwhere with ⟨hnone, -⟩ | ⟨content, hfile⟩
      · have hnode := hnone.symm.trans hn
        cases hnode
      · have hnode := hfile.symm.trans hn
        cases hnode
        rfl

/-! ## 4. Discarding the file -/

variable {base : Disk} {path : Path}

theorem remove_of_ok {disk : Disk} (hu : host.disk.unlink path.text = .ok disk) :
    remove path host = ({ host with disk }, true) := by
  unfold remove
  rw [hu]

theorem remove_of_absent (hu : host.disk.unlink path.text = .error .noEntry) :
    remove path host = (host, true) := by
  unfold remove
  rw [hu]

theorem remove_of_directory (hu : host.disk.unlink path.text = .error .isDirectory) :
    remove path host = (host.noted .warning (deleteWarning path .isDirectory), false) := by
  unfold remove
  rw [hu]

/-- Nothing is left to discard where the tool took the file away. -/
theorem discard_of_vacant (hs : Files.SameBut base loc host.disk)
    (hv : Files.LeadsToVacant base path.text loc) (hn : host.disk.tree.get? loc = none) :
    (discard { path } host) = host := by
  have hu : host.disk.unlink path.text = .error .noEntry := by
    simp [Disk.unlink, Disk.find_vacant (hs.locate hv) hn, bind, Except.bind]
  simp [discard, remove_of_absent hu]

/-- The file is taken away, if it is still there. -/
theorem discard_of_file (hs : Files.SameBut base loc host.disk)
    (hv : Files.LeadsToVacant base path.text loc) {node : Node}
    (hn : host.disk.tree.get? loc = some node) (hf : node.isFile = true) :
    (discard { path } host) =
      { host with disk := { host.disk with tree := host.disk.tree.erase loc } } := by
  have hd : node.isDirectory = false := by
    cases node with
    | directory mode => cases hf
    | _ => rfl
  have hu : host.disk.unlink path.text =
      .ok { host.disk with tree := host.disk.tree.erase loc } := by
    simp [Disk.unlink, Disk.find_of_locate (hs.locate hv) hn, bind, Except.bind, hd]
  simp [discard, remove_of_ok hu]

/-- A directory in its place stays, and one warning says so. -/
theorem discard_of_directory (hs : Files.SameBut base loc host.disk)
    (hv : Files.LeadsToVacant base path.text loc) {mode : Nat}
    (hn : host.disk.tree.get? loc = some (.directory mode)) :
    (discard { path } host) = host.noted .warning (deleteWarning path .isDirectory) := by
  have hu : host.disk.unlink path.text = .error .isDirectory := by
    simp [Disk.unlink, Disk.find_of_locate (hs.locate hv) hn, bind, Except.bind, Node.isDirectory]
  simp [discard, remove_of_directory hu]

/-- **Unless a directory is in its place, discarding the file leaves the nodes of the disk as they
were before it was made**, and changes nothing else. -/
theorem discard_spec (hw : base.tree.WellFormed) (hs : Files.SameBut base loc host.disk)
    (hv : Files.LeadsToVacant base path.text loc)
    (hn : (host.disk.tree.get? loc).any Node.isDirectory = false) :
    ∃ disk, discard { path } host = { host with disk } ∧ Files.SameNodes base disk ∧
      disk.cwd = base.cwd := by
  cases hnode : host.disk.tree.get? loc with
  | none =>
    refine ⟨host.disk, discard_of_vacant hs hv hnode, fun l => ?_, hs.cwd⟩
    by_cases hl : l = loc
    · rw [hl, hnode, hv.vacant]
    · exact hs.others l hl
  | some node =>
    rcases hs.place node hnode with hf | ⟨mode, rfl⟩
    · exact ⟨_, discard_of_file hs hv hnode hf, hs.sameNodes_erase hw hv.vacant, hs.cwd⟩
    · rw [hnode] at hn
      cases hn

/-- **Where no disposable file can be made** and the trouble is the operating system's, the host is as
it was, but for the supply of names. -/
theorem create_error {fault : Fault} (hd : host.disk.WellFormed)
    (hp : ∀ path, directory = some path → path.Proper)
    (hopen : ∀ trouble, host.openFault = some trouble → trouble.isA .osError = true)
    (h : (create (.bytes data) directory).exec host = (.error fault, after)) :
    ∃ namesTaken, after = { host with namesTaken } := by
  rw [create_exec] at h
  cases hc : claim host.disk (directoryFor host directory) ".class" maxAttempts host.namesTaken with
  | error trouble =>
    rw [hc] at h
    cases h
    exact ⟨host.namesTaken, rfl⟩
  | ok made =>
    obtain ⟨disk, path, namesTaken⟩ := made
    obtain ⟨n, loc, hpath, hof, hv, rfl⟩ := claim_spec hd hp hc
    have hsame := sameBut_set hv.vacant [] 0o600
    have hnode : (host.disk.tree.set loc (.file (.bytes []) 0o600)).get? loc = _ :=
      Tree.get?_set_self (Tree.ne_nil_of_vacant hv.vacant) _
    rw [hc] at h
    rcases Option.eq_none_or_eq_some host.openFault with ho | ⟨trouble, ho⟩
    · have hwrite : ({ host.disk with
          tree := host.disk.tree.set loc (.file (.bytes []) 0o600) } : Disk).write path data = _ :=
        Disk.write_file (Disk.locate_true (hsame.locate hv) fun target => by rw [hnode]; simp) hnode
      have hfill : (fill path (.bytes data)).exec { host with
          disk := { host.disk with tree := host.disk.tree.set loc (.file (.bytes []) 0o600) },
          namesTaken } = _ := fill_exec ho hwrite
      simp only [hfill] at h
      cases h
    · have hfill : (fill path (.bytes data)).exec { host with
          disk := { host.disk with tree := host.disk.tree.set loc (.file (.bytes []) 0o600) },
          namesTaken } = _ := fill_fails (by exact ho) path data
      have hos : trouble.afterRaise.isA .osError = true := hopen trouble ho
      simp only [hfill, hos, if_true] at h
      cases h
      have hled : Files.LeadsToVacant host.disk (Path.ofText path).text loc := by
        rw [hof, ← hpath]
        exact hv
      have hback : (host.disk.tree.set loc (.file (.bytes []) 0o600)).erase loc = host.disk.tree :=
        (Tree.erase_set _ _ _).trans (hd.tree.erase_vacant hv.vacant)
      refine ⟨namesTaken, (discard_of_file hsame hled hnode rfl).trans ?_⟩
      simp only [hback]

/-! ## 5. What making a file depends on -/

/-- The hosts make disposable files in the same way. -/
structure MakesAlike (host other : Host) : Prop where
  disk : host.disk = other.disk
  systemTemp : host.systemTemp = other.systemTemp
  openFault : host.openFault = other.openFault
  namesTaken : host.namesTaken = other.namesTaken

/-- The related hosts make disposable files in the same way, and stay related when the same happens
to their disks, to their supplies of names and to their logs. -/
structure KeepsAlike (R : Host → Host → Prop) : Prop where
  alike : ∀ {host other}, R host other → MakesAlike host other
  disk : ∀ {host other}, R host other → ∀ disk, R { host with disk } { other with disk }
  names : ∀ {host other}, R host other →
    ∀ namesTaken, R { host with namesTaken } { other with namesTaken }
  noted : ∀ {host other}, R host other →
    ∀ level message, R (host.noted level message) (other.noted level message)

theorem MakesAlike.keepsAlike : KeepsAlike MakesAlike where
  alike h := h
  disk h _ := { h with disk := rfl }
  names h _ := { h with namesTaken := rfl }
  noted h _ _ := { h with }

namespace KeepsAlike

variable {R : Host → Host → Prop}

theorem discard (hR : KeepsAlike R) {host other : Host} (h : R host other) (handle : Disposable) :
    R (handle.discard host) (handle.discard other) := by
  unfold Disposable.discard remove
  rw [(hR.alike h).disk]
  split
  · exact h
  · split
    · exact hR.disk h _
    · exact h
    · exact hR.noted h _ _

theorem fill_agrees (hR : KeepsAlike R) (path : String) (data : Value) :
    (fill path data).Agrees R := by
  refine Run.Agrees.get_bind fun host other h => ?_
  rw [(hR.alike h).openFault]
  split
  · exact ⟨rfl, h⟩
  · refine (Run.Agrees.ofExcept _).bind (fun bytes => ?_) host other h
    exact Run.Agrees.changeDisk (fun _ _ h => (hR.alike h).disk) fun _ _ disk h => hR.disk h disk

theorem create_agrees (hR : KeepsAlike R) (data : Value) (directory : Option Path) :
    (create data directory).Agrees R := by
  refine Run.Agrees.get_bind fun host other h => ?_
  have halike := hR.alike h
  have hclaim :
      claim host.disk (host.disk.absolute (directory.getD (Path.ofText host.systemTemp))) ".class"
          maxAttempts host.namesTaken =
        claim other.disk (other.disk.absolute (directory.getD (Path.ofText other.systemTemp)))
          ".class" maxAttempts other.namesTaken := by
    rw [halike.disk, halike.systemTemp, halike.namesTaken]
  simp only [hclaim]
  split
  · exact ⟨rfl, h⟩
  · rename_i disk path namesTaken _
    simp only [Run.exec_bind_ok (Run.exec_set _ _)]
    refine (hR.fill_agrees path data).attempt.bind (fun result => ?_) _ _
      (hR.names (hR.disk h disk) namesTaken)
    cases result with
    | ok _ => exact Run.Agrees.pure _
    | error fault =>
      simp only
      split
      · exact (Run.Agrees.modify fun _ _ h => hR.discard h _).bind fun _ => Run.Agrees.throw _
      · exact Run.Agrees.throw _

end KeepsAlike

/-- **Making a file comes out the same where files are made in the same way.** -/
theorem create_agrees (data : Value) (directory : Option Path) :
    (create data directory).Agrees MakesAlike :=
  MakesAlike.keepsAlike.create_agrees data directory

/-- Discarding a file changes the disk and the log, and nothing else. -/
theorem discard_of_property {P : Host → Prop}
    (hdisk : ∀ host disk namesTaken, P host → P { host with disk, namesTaken })
    (hnote : ∀ host level message, P host → P (host.noted level message)) (handle : Disposable)
    {host : Host} (hp : P host) : P (handle.discard host) := by
  unfold Disposable.discard remove
  split
  · exact hp
  · split
    · exact hdisk host _ host.namesTaken hp
    · exact hp
    · exact hnote host _ _ hp

/-- Making a file changes the disk, the log and the supply of names, and nothing else. -/
theorem create_keeps {P : Host → Prop}
    (hdisk : ∀ host disk namesTaken, P host → P { host with disk, namesTaken })
    (hnote : ∀ host level message, P host → P (host.noted level message)) (data : Value)
    (directory : Option Path) : (create data directory).Keeps P := by
  refine Run.Keeps.get_bind fun host hp => ?_
  simp only
  split
  · exact hp
  · rename_i disk path namesTaken _
    rw [Run.exec_bind_ok (Run.exec_set _ _)]
    have hfill : (fill path data).Keeps P := by
      refine Run.Keeps.get.bind fun host => ?_
      split
      · exact Run.Keeps.throw _
      · exact (Run.Keeps.ofExcept _).bind fun _ =>
          Run.Keeps.changeDisk fun host disk hp _ => hdisk host disk host.namesTaken hp
    refine hfill.attempt.bind (fun result => ?_) _ (hdisk host disk namesTaken hp)
    cases result with
    | ok _ => exact Run.Keeps.pure _
    | error fault =>
      simp only
      split
      · refine (Run.Keeps.modify fun host hp => ?_).bind fun _ => Run.Keeps.throw _
        exact discard_of_property hdisk hnote _ hp
      · exact Run.Keeps.throw _

end Disposable

end Dissect
