/-
# What operations on files change

An operation that succeeds changes the tree at the one location that its path leads to; this file
says which, for each operation.  For a path that is a name in a directory, that location is the name
below the location of the directory (`locate_child`).
-/
import Dissect.Proofs.Following
import Dissect.Proofs.Results

namespace Dissect.Files

variable {d d' : Disk} {followLast : Bool} {path : String} {loc reached : Location}

/-! ## 1. Where a path leads -/

namespace Disk

theorem locate_ok (h : d.locate followLast path = .ok reached) :
    path ≠ "" ∧ path.utf8ByteSize < maxPathBytes ∧
      follow d.tree followLast maxLinks (rawStart d.cwd path) (rawNames path) = .ok reached := by
  unfold locate at h
  split at h
  · cases h
  split at h
  · cases h
  rename_i hne hlong
  exact ⟨hne, Nat.lt_of_not_le hlong, h⟩

theorem locate_of_follow (hne : path ≠ "") (hshort : path.utf8ByteSize < maxPathBytes)
    (h : follow d.tree followLast maxLinks (rawStart d.cwd path) (rawNames path) = .ok reached) :
    d.locate followLast path = .ok reached := by
  unfold locate
  rw [if_neg hne, if_neg (Nat.not_le.mpr hshort)]
  exact h

/-- A path leads where it led as long as the directories and links on the way are there. -/
theorem locate_keeps (ht : d.tree.Keeps d'.tree) (hc : d'.cwd = d.cwd)
    (h : d.locate followLast path = .ok reached) : d'.locate followLast path = .ok reached := by
  obtain ⟨hne, hshort, hf⟩ := locate_ok h
  refine locate_of_follow hne hshort ?_
  rw [hc]
  exact follow_keeps ht hf

/-- A path that leads to no link leads there whether a last link is followed or not. -/
theorem locate_true (h : d.locate false path = .ok reached)
    (hlink : ∀ target, d.tree.get? reached ≠ some (.link target)) :
    d.locate true path = .ok reached := by
  obtain ⟨hne, hshort, hf⟩ := locate_ok h
  exact locate_of_follow hne hshort (follow_true hlink hf)

theorem text_ne_empty {p : Path} (hp : p.Proper) : p.text ≠ "" := by
  intro he
  by_cases hparts : p.parts = []
  · obtain ⟨anchor, parts⟩ := p
    simp only at hparts
    subst hparts
    cases anchor <;> simp [Path.text, Anchor.text, Text.join] at he
  · obtain ⟨front, hfront⟩ := Path.toList_text hparts
    rw [he] at hfront
    have hlast := (hp _ (List.getLast_mem hparts)).1
    have hnil : (p.parts.getLast hparts).toList = [] := by
      have := hfront.symm
      simp only [String.toList_empty, List.append_eq_nil_iff] at this
      exact this.2
    exact Path.toList_ne_nil hlast hnil

/-- The text of a path in a directory, after the directory's own. -/
theorem text_child {p : Path} (hne : p.parts ≠ []) {name : String} (hn : Path.IsPlain name) :
    (p.child name).text = p.text ++ "/" ++ name := by
  rw [Path.child_plain p hn, Path.text_of_parts (by simp), Path.text_of_parts hne]
  simp only [Text.join]
  rw [String.intercalate_append_of_ne_nil hne (List.cons_ne_nil name []),
    String.intercalate_singleton, String.append_assoc, String.append_assoc, String.append_assoc]

/-- The text of a path in a directory is not shorter than the directory's. -/
theorem utf8ByteSize_child (p : Path) {name : String} (hn : Path.IsPlain name) :
    p.text.utf8ByteSize ≤ (p.child name).text.utf8ByteSize := by
  by_cases hne : p.parts = []
  · have hsize : name.utf8ByteSize ≠ 0 := fun h => hn.1 (String.utf8ByteSize_eq_zero_iff.mp h)
    rw [Path.child_plain p hn]
    obtain ⟨anchor, parts⟩ := p
    simp only at hne
    subst hne
    cases anchor with
    | relative =>
      have hdot : ".".utf8ByteSize = 1 := by decide
      simp [Path.text, Anchor.text, Text.join]
      omega
    | root => simp [Path.text, Anchor.text, Text.join, String.utf8ByteSize_append]
    | doubleRoot => simp [Path.text, Anchor.text, Text.join, String.utf8ByteSize_append]
  · rw [text_child hne hn, String.utf8ByteSize_append, String.utf8ByteSize_append]
    omega

/-- The names of a path without components ask for a directory where the path starts. -/
theorem rawNames_top {p : Path} (hne : p.parts = []) : rawNames p.text = ["."] := by
  obtain ⟨anchor, parts⟩ := p
  simp only at hne
  subst hne
  cases anchor <;> decide

theorem rawStart_top {p : Path} (hne : p.parts = []) (cwd : Location) :
    rawStart cwd p.text = if p.isAbsolute then [] else cwd := by
  obtain ⟨anchor, parts⟩ := p
  simp only at hne
  subst hne
  cases anchor <;> rfl

/-- **A path with more components leads on from where it leads without them.** -/
theorem locate_append {p : Path} {names : List String} (hp : p.Proper) (hne : names ≠ [])
    (hnames : ∀ name ∈ names, Path.IsPlain name) (hshort : p.text.utf8ByteSize < maxPathBytes)
    (h : d.locate followLast (Path.text ⟨p.anchor, p.parts ++ names⟩) = .ok reached) :
    ∃ base left, d.locate true p.text = .ok base ∧
      follow d.tree followLast left base names = .ok reached := by
  obtain ⟨-, -, hf⟩ := locate_ok h
  have hparts : p.parts ++ names ≠ [] := by simp [hne]
  have hproper : Path.Proper ⟨p.anchor, p.parts ++ names⟩ := fun part hm =>
    (List.mem_append.mp hm).elim (hp part) (hnames part)
  rw [rawNames_text hproper hparts, rawStart_text hproper hparts] at hf
  have hbase : ∀ {base}, follow d.tree true maxLinks (rawStart d.cwd p.text) (rawNames p.text) =
      .ok base → d.locate true p.text = .ok base := locate_of_follow (text_ne_empty hp) hshort
  by_cases htop : p.parts = []
  · -- without components the path asks for the directory where it starts, which the names are in
    obtain ⟨name, rest, rfl⟩ := List.exists_cons_of_ne_nil hne
    simp only [htop, List.nil_append] at hf
    refine ⟨_, maxLinks, hbase ?_, hf⟩
    rw [rawNames_top htop, rawStart_top htop]
    exact follow_dot (directory_of_follow hf)
  · obtain ⟨base, left, hway, hrest⟩ := follow_append hne hf
    refine ⟨base, left, hbase ?_, hrest⟩
    rw [rawNames_text hp htop, rawStart_text hp htop]
    exact hway

/-- A name leads somewhere only from a directory. -/
theorem directory_of_locate_child {p : Path} (hp : p.Proper) {name : String}
    (hn : Path.IsPlain name) (h : d.locate followLast (p.child name).text = .ok reached) :
    ∃ base, d.locate true p.text = .ok base ∧ (d.tree.get? base).any Node.isDirectory = true := by
  obtain ⟨-, hshort, -⟩ := locate_ok h
  have hpshort := Nat.lt_of_le_of_lt (utf8ByteSize_child p hn) hshort
  rw [Path.child_plain p hn] at h
  obtain ⟨base, left, hbase, hlast⟩ := locate_append hp (List.cons_ne_nil name [])
    (List.forall_mem_singleton.mpr hn) hpshort h
  exact ⟨base, hbase, directory_of_follow hlast⟩

/-- **A name in a directory leads below where the directory leads**, unless it is a link that is
followed. -/
theorem locate_child {p : Path} (hp : p.Proper) {name : String} (hn : Path.IsPlain name)
    (hup : name ≠ "..") (h : d.locate followLast (p.child name).text = .ok reached)
    (hlink : followLast = true → ∀ base target, d.locate true p.text = .ok base →
      d.tree.get? (base ++ [name]) ≠ some (.link target)) :
    ∃ base, d.locate true p.text = .ok base ∧ reached = base ++ [name] ∧
      (d.tree.get? base).any Node.isDirectory = true := by
  obtain ⟨-, hshort, -⟩ := locate_ok h
  have hpshort := Nat.lt_of_le_of_lt (utf8ByteSize_child p hn) hshort
  rw [Path.child_plain p hn] at h
  obtain ⟨base, left, hbase, hlast⟩ := locate_append hp (List.cons_ne_nil name [])
    (List.forall_mem_singleton.mpr hn) hpshort h
  obtain ⟨hreached, hdir⟩ :=
    follow_last hlast hn.2.1 hup fun htrue target => hlink htrue base target hbase
  exact ⟨base, hbase, hreached, hdir⟩

/-- **A name in a directory that is there can be followed**, unless the name or the path is too
long, to its place in the directory, if it is not a link that is followed further. -/
theorem locate_in {p : Path} (hp : p.Proper) {name : String} (hn : Path.IsPlain name)
    (hup : name ≠ "..") {base : Location} (hbase : d.locate true p.text = .ok base)
    (hdir : (d.tree.get? base).any Node.isDirectory = true)
    (hlink : followLast = true → ∀ target, d.tree.get? (base ++ [name]) ≠ some (.link target)) :
    d.locate followLast (p.child name).text =
      if maxPathBytes ≤ (p.child name).text.utf8ByteSize ∨ maxNameBytes < name.utf8ByteSize then
        .error .nameTooLong
      else .ok (base ++ [name]) := by
  obtain ⟨-, hshort, hf⟩ := locate_ok hbase
  have hchild := Path.child_plain p hn
  have hparts : (p.child name).parts ≠ [] := by simp [hchild]
  have hproper := hp.child hn
  have habs : (p.child name).isAbsolute = p.isAbsolute := by rw [hchild]; rfl
  have hnames : rawNames (p.child name).text = p.parts ++ [name] := by
    rw [rawNames_text hproper hparts, hchild]
  have hstart : rawStart d.cwd (p.child name).text = if p.isAbsolute then [] else d.cwd := by
    rw [rawStart_text hproper hparts, habs]
  -- the names of the directory lead to it, and the last name on from there
  obtain ⟨left, hleft⟩ : ∃ left, follow d.tree followLast maxLinks
      (rawStart d.cwd (p.child name).text) (rawNames (p.child name).text) =
        follow d.tree followLast left base [name] := by
    rw [hnames, hstart]
    by_cases hne : p.parts = []
    · rw [rawNames_top hne, rawStart_top hne] at hf
      rw [hne, List.nil_append]
      refine ⟨maxLinks, ?_⟩
      rw [(of_follow_dot hf).1]
    · rw [rawNames_text hp hne, rawStart_text hp hne] at hf
      exact follow_concat (List.cons_ne_nil name []) hf hdir
  unfold locate
  rw [if_neg (text_ne_empty hproper)]
  by_cases hlong : maxPathBytes ≤ (p.child name).text.utf8ByteSize
  · rw [if_pos hlong, if_pos (.inl hlong)]
  · rw [if_neg hlong, hleft, follow_name hn.2.1 hup hdir hlink]
    by_cases hname : maxNameBytes < name.utf8ByteSize
    · rw [if_pos hname, if_pos (.inr hname)]
    · rw [if_neg hname, if_neg (not_or.mpr ⟨hlong, hname⟩)]

/-! ## 2. What each operation changes -/

theorem find_ok {node : Node} (h : d.find followLast path = .ok (loc, node)) :
    d.locate followLast path = .ok loc ∧ d.tree.get? loc = some node := by
  unfold find at h
  obtain ⟨reached, hl, h⟩ := ok_of_bind h
  split at h
  · rename_i found hn
    cases h
    exact ⟨hl, hn⟩
  · cases h

theorem find_of_locate {node : Node} (hl : d.locate followLast path = .ok loc)
    (hn : d.tree.get? loc = some node) : d.find followLast path = .ok (loc, node) := by
  simp [find, hl, hn, bind, Except.bind]

theorem find_vacant (hl : d.locate followLast path = .ok loc) (hn : d.tree.get? loc = none) :
    d.find followLast path = .error .noEntry := by
  simp [find, hl, hn, bind, Except.bind]

theorem place_ok {node : Node} (h : d.place loc node = .ok d') :
    (d.tree.get? loc.dropLast).any Node.isDirectory = true ∧
      d' = { d with tree := d.tree.set loc node } := by
  unfold place at h
  cases hn : d.tree.get? loc.dropLast with
  | none => rw [hn] at h; cases h
  | some parent =>
    rw [hn] at h
    cases parent with
    | directory mode =>
      cases h
      exact ⟨rfl, rfl⟩
    | _ => cases h

/-- Removing takes a file or link away from where the path leads. -/
theorem unlink_ok (h : d.unlink path = .ok d') :
    ∃ loc node, d.locate false path = .ok loc ∧ d.tree.get? loc = some node ∧
      node.isDirectory = false ∧ d' = { d with tree := d.tree.erase loc } := by
  unfold unlink at h
  obtain ⟨⟨loc, node⟩, hf, h⟩ := ok_of_bind h
  obtain ⟨hl, hn⟩ := find_ok hf
  cases hd : node.isDirectory with
  | true => simp [hd] at h
  | false =>
    simp only [hd, Bool.false_eq_true, if_false] at h
    cases h
    exact ⟨loc, node, hl, hn, hd, rfl⟩

/-- Making a directory puts it where the path leads and nothing was. -/
theorem makeDirectory_ok (h : d.makeDirectory path = .ok d') :
    ∃ loc, d.locate false path = .ok loc ∧ d.tree.get? loc = none ∧
      (d.tree.get? loc.dropLast).any Node.isDirectory = true ∧
      d' = { d with tree := d.tree.set loc (.directory 0o755) } := by
  unfold makeDirectory at h
  obtain ⟨loc, hl, h⟩ := ok_of_bind h
  cases hn : d.tree.get? loc with
  | some node => simp [hn] at h
  | none =>
    simp only [hn] at h
    obtain ⟨hdir, hd'⟩ := place_ok h
    exact ⟨loc, hl, hn, hdir, hd'⟩

/-- Removing a directory takes it away from where the path leads, and nothing was in it. -/
theorem removeDirectory_ok (h : d.removeDirectory path = .ok d') :
    ∃ loc mode, d.locate false path = .ok loc ∧ d.tree.get? loc = some (.directory mode) ∧
      (∀ name, d.tree.get? (loc ++ [name]) = none) ∧
      d' = { d with tree := d.tree.erase loc } := by
  unfold removeDirectory at h
  obtain ⟨⟨loc, node⟩, hf, h⟩ := ok_of_bind h
  obtain ⟨hl, hn⟩ := find_ok hf
  cases node with
  | directory mode =>
    simp only [Node.isDirectory, Bool.not_true, Bool.false_eq_true, if_false] at h
    cases hempty : (d.tree.children loc).isEmpty with
    | false =>
      rw [hempty] at h
      cases h
    | true =>
      rw [hempty] at h
      cases h
      refine ⟨loc, mode, hl, hn, fun name => ?_, rfl⟩
      cases hbelow : d.tree.get? (loc ++ [name]) with
      | none => rfl
      | some node =>
        have hmem := Tree.mem_children_iff.mpr ⟨node, hbelow⟩
        rw [List.isEmpty_iff.mp hempty] at hmem
        cases hmem
  | _ => cases h

/-- Writing puts a file where the path leads, if a file or nothing was there. -/
theorem write_ok {data : Text.Bytes} (h : d.write path data = .ok d') :
    ∃ loc, d.locate true path = .ok loc ∧
      (d' = d ∨ ∃ mode, d' = { d with tree := d.tree.set loc (.file (.bytes data) mode) } ∧
        ((d.tree.get? loc = none ∧ (d.tree.get? loc.dropLast).any Node.isDirectory = true) ∨
          ∃ content, d.tree.get? loc = some (.file content mode))) := by
  unfold write at h
  obtain ⟨loc, hl, h⟩ := ok_of_bind h
  refine ⟨loc, hl, ?_⟩
  cases hn : d.tree.get? loc with
  | none =>
    simp only [hn] at h
    split at h
    · cases h
    · obtain ⟨hdir, hd'⟩ := place_ok h
      exact .inr ⟨_, hd', .inl ⟨rfl, hdir⟩⟩
  | some node =>
    simp only [hn] at h
    cases node with
    | file content mode =>
      cases h
      exact .inr ⟨mode, rfl, .inr ⟨content, rfl⟩⟩
    | directory mode => cases h
    | link target => cases h; exact .inl rfl
    | pipe mode => cases h; exact .inl rfl

/-- The file at the end of a path is written over in its place. -/
theorem write_file {data : Text.Bytes} {content : Content} {mode : Nat}
    (hl : d.locate true path = .ok loc) (hn : d.tree.get? loc = some (.file content mode)) :
    d.write path data = .ok { d with tree := d.tree.set loc (.file (.bytes data) mode) } := by
  simp [write, hl, hn, bind, Except.bind]

/-- Making a new file, at a path that does not end with a slash, puts it where the path leads and
nothing was. -/
theorem create_ok (hend : path.toList.getLast? ≠ some '/') (h : d.create path = .ok d') :
    ∃ loc, d.locate false path = .ok loc ∧ d.tree.get? loc = none ∧
      (d.tree.get? loc.dropLast).any Node.isDirectory = true ∧
      d' = { d with tree := d.tree.set loc (.file (.bytes []) 0o600) } := by
  have hstrip : String.ofList (path.toList.reverse.dropWhile (· = '/')).reverse = path := by
    have hkeep : path.toList.reverse.dropWhile (· = '/') = path.toList.reverse := by
      cases hr : path.toList.reverse with
      | nil => rfl
      | cons c rest =>
        have hc : c ≠ '/' := by
          rintro rfl
          refine hend ?_
          rw [← List.head?_reverse, hr]
          rfl
        simp [hc]
    rw [hkeep, List.reverse_reverse, String.ofList_toList]
  unfold create at h
  rw [hstrip] at h
  obtain ⟨loc, hl, h⟩ := ok_of_bind h
  cases hn : d.tree.get? loc with
  | some node => simp [hn] at h
  | none =>
    simp only [hn] at h
    split at h
    · cases h
    · obtain ⟨hdir, hd'⟩ := place_ok h
      exact ⟨loc, hl, hn, hdir, hd'⟩

/-! ## 3. Questions about paths -/

/-- A text that no path can be is refused as a text, and never by the system. -/
theorem pathFault?_kind {text : String} {fault : Fault} (h : pathFault? text = some fault) :
    fault.kind = .unicodeEncodeError ∨ fault.kind = .valueError := by
  unfold pathFault? encodingFault? at h
  cases hi : text.toList.findIdx? isUnencodable with
  | some position =>
    rw [hi] at h
    cases h
    exact .inl rfl
  | none =>
    simp only [hi, Option.map_none, Option.none_or] at h
    split at h
    · cases h
      exact .inr rfl
    · cases h

/-- A text that no path can be is a failure of each class that both of its kinds belong to. -/
theorem isA_pathFault {text : String} {fault : Fault} {c : FaultClass} {answer : Bool}
    (h : pathFault? text = some fault) (hencoding : FaultClass.unicodeEncodeError.isA c = answer)
    (hvalue : FaultClass.valueError.isA c = answer) : fault.isA c = answer := by
  unfold Fault.isA
  rcases pathFault?_kind h with hk | hk
  · rw [hk, hencoding]
  · rw [hk, hvalue]

/-- What is at a path, at the location that the path leads to. -/
theorem stat_ok {node : Node} (h : d.stat path = .ok node) :
    ∃ loc, d.locate true path = .ok loc ∧ d.tree.get? loc = some node := by
  unfold stat at h
  cases hf : d.find true path with
  | error e => rw [hf] at h; cases h
  | ok found =>
    obtain ⟨loc, there⟩ := found
    rw [hf] at h
    cases h
    obtain ⟨hl, hn⟩ := find_ok hf
    exact ⟨loc, hl, hn⟩

theorem stat_of_locate {node : Node} (hl : d.locate true path = .ok loc)
    (hn : d.tree.get? loc = some node) : d.stat path = .ok node := by
  rw [stat, find_of_locate hl hn]
  rfl

/-- A node has a property if its path can be one and the node at its end has it. -/
theorem check_of_stat {p : Path} {property : Node → Bool} {node : Node}
    (hfault : pathFault? p.text = none) (hs : d.stat p.text = .ok node) :
    d.check p property = .ok (property node) := by
  simp [check, hfault, hs]

theorem check_of_absent {p : Path} {property : Node → Bool} (hs : d.stat p.text = .error .noEntry) :
    d.check p property = .ok false := by
  unfold check
  rw [hs]
  split <;> rfl

theorem check_true_iff {p : Path} {property : Node → Bool} :
    d.check p property = .ok true ↔
      pathFault? p.text = none ∧ ∃ node, d.stat p.text = .ok node ∧ property node = true := by
  unfold check
  cases hfault : pathFault? p.text with
  | some fault => simp
  | none =>
    cases hs : d.stat p.text with
    | error e => cases he : e.meansAbsent <;> simp [he]
    | ok node => simp

/-- The only failures of a question about a path are errors of the operating system. -/
theorem check_error {p : Path} {property : Node → Bool} {fault : Fault}
    (h : d.check p property = .error fault) : ∃ e : Errno, fault = e.fault p.text := by
  unfold check at h
  split at h
  · cases h
  split at h
  · cases h
  split at h
  · cases h
  · cases h
    exact ⟨_, rfl⟩

/-- What has a property is there. -/
theorem exists_of_check {p : Path} {property : Node → Bool} (h : d.check p property = .ok true) :
    d.exists? p = .ok true := by
  obtain ⟨hfault, node, hs, -⟩ := check_true_iff.mp h
  exact check_of_stat hfault hs

/-- A path is that of a directory if it can be a path and a directory is where it leads. -/
theorem isDirectory_true_iff {p : Path} :
    d.isDirectory p = .ok true ↔
      pathFault? p.text = none ∧ ∃ mode, d.stat p.text = .ok (.directory mode) := by
  refine check_true_iff.trans (and_congr_right fun _ => ⟨?_, fun ⟨mode, hs⟩ => ⟨_, hs, rfl⟩⟩)
  rintro ⟨node, hs, hnode⟩
  cases node with
  | directory mode => exact ⟨mode, hs⟩
  | _ => cases hnode

/-- A path is that of a regular file if it can be a path and a regular file is where it leads. -/
theorem isFile_true_iff {p : Path} :
    d.isFile p = .ok true ↔
      pathFault? p.text = none ∧ ∃ content mode, d.stat p.text = .ok (.file content mode) := by
  refine check_true_iff.trans (and_congr_right fun _ => ⟨?_, fun ⟨_, _, hs⟩ => ⟨_, hs, rfl⟩⟩)
  rintro ⟨node, hs, hnode⟩
  cases node with
  | file content mode => exact ⟨content, mode, hs⟩
  | _ => cases hnode

/-- A directory is no file. -/
theorem isFile_of_isDirectory {p : Path} (h : d.isDirectory p = .ok true) :
    d.isFile p = .ok false ∧ d.exists? p = .ok true := by
  obtain ⟨hfault, mode, hs⟩ := isDirectory_true_iff.mp h
  exact ⟨check_of_stat hfault hs, check_of_stat hfault hs⟩

/-- A directory stays one as long as the directories and links on the way are there. -/
theorem isDirectory_keeps {p : Path} (ht : d.tree.Keeps d'.tree) (hc : d'.cwd = d.cwd)
    (h : d.isDirectory p = .ok true) : d'.isDirectory p = .ok true := by
  obtain ⟨hfault, mode, hs⟩ := isDirectory_true_iff.mp h
  obtain ⟨loc, hl, hn⟩ := stat_ok hs
  exact isDirectory_true_iff.mpr
    ⟨hfault, mode, stat_of_locate (locate_keeps ht hc hl) (ht.directory _ _ hn)⟩

end Disk

end Dissect.Files
