/-
# What a store writes and reads again

In a directory with nothing but regular files (`ErrorStore.Settled`) every operation of the store on
one of its files is a matter of the node under the file's name.  A name that fits the system's limits
(`Fits`) can be followed, written, read and deleted, whatever else the directory holds; any other name
stands for nothing, and writing to it is an error that is reported.

A document within the limits of the reader that is saved under a name that fits is read again
(`Settled.read_file`), and nothing else in the directory changes.
-/
import Dissect.Proofs.ReadDocuments
import Dissect.Proofs.Recording
import Dissect.Proofs.StoredFiles

namespace Dissect

open Files (Disk Location Node Tree Errno maxNameBytes maxPathBytes)

/-! ## 1. Texts that paths can be -/

/-- What is said of the characters of a text is decided for these one by one, and not for all the
characters that there are. -/
instance (priority := 2000) decidableForallChars {p : Char → Prop} [DecidablePred p] (text : List Char) :
    Decidable (∀ c ∈ text, p c) :=
  List.decidableBAll p text

namespace Files.Disk

/-- Every character of the text may stand in a path. -/
def Nameable (text : String) : Prop :=
  ∀ c ∈ text.toList, isUnencodable c = false ∧ c ≠ Char.ofNat 0

theorem pathFault?_none_iff {text : String} : pathFault? text = none ↔ Nameable text := by
  unfold pathFault? encodingFault? Nameable
  rw [Option.or_eq_none_iff, Option.map_eq_none_iff, List.findIdx?_eq_none_iff]
  constructor
  · rintro ⟨hall, hnul⟩ c hc
    refine ⟨hall c hc, fun heq => ?_⟩
    have hmem : hasNul text = true := by
      subst heq
      exact List.contains_iff_mem.mpr hc
    rw [if_pos hmem] at hnul
    cases hnul
  · intro h
    refine ⟨fun c hc => (h c hc).1, if_neg fun hmem => ?_⟩
    exact (h _ (List.contains_iff_mem.mp hmem)).2 rfl

theorem Nameable.append {s t : String} (hs : Nameable s) (ht : Nameable t) : Nameable (s ++ t) := by
  intro c hc
  rw [String.toList_append] at hc
  exact (List.mem_append.mp hc).elim (hs c) (ht c)

/-- A character below the private ones stands for itself. -/
theorem not_unencodable {c : Char} (h : c.toNat < Text.loneOffset) : isUnencodable c = false := by
  have hlone : Text.loneUnit? c = none := by
    unfold Text.loneUnit?
    rw [Nat.sub_eq_zero_of_le (Nat.le_of_lt h)]
    rfl
  unfold isUnencodable
  rw [hlone]
  rfl

theorem nameable_of_ascii {text : String}
    (h : ∀ c ∈ text.toList, 0 < c.toNat ∧ c.toNat < 0x80) : Nameable text := by
  intro c hc
  obtain ⟨hpos, hlt⟩ := h c hc
  refine ⟨not_unencodable (Nat.lt_trans hlt (by decide)), ?_⟩
  rintro rfl
  exact absurd hpos (by decide)

theorem nameable_child {p : Path} (hp : Nameable p.text) {name : String} (hplain : Path.IsPlain name)
    (hn : Nameable name) : Nameable (p.child name).text := by
  have hslash : Nameable "/" := nameable_of_ascii (by simp)
  by_cases hparts : p.parts = []
  · have hanchor : Nameable p.anchor.text := by
      cases p.anchor with
      | relative => exact nameable_of_ascii (by simp [Anchor.text])
      | root => exact hslash
      | doubleRoot => exact hslash.append hslash
    rw [Path.child_plain p hplain, Path.text_of_parts (by simp), hparts]
    exact hanchor.append hn
  · rw [text_child hparts hplain]
    exact (hp.append hslash).append hn

end Files.Disk

namespace ErrorStore

open Files.Disk (Nameable)

variable {s : ErrorStore} {d d' : Disk} {loc : Location} {name : String} {followLast : Bool}

/-! ## 2. Names in the store's directory -/

/-- The name and the path that it makes are not too long. -/
def Fits (s : ErrorStore) (name : String) : Prop :=
  (s.directory.child name).text.utf8ByteSize < maxPathBytes ∧ name.utf8ByteSize ≤ maxNameBytes

/-- The node under a name in the directory at a location. -/
def nodeAt (d : Disk) (loc : Location) (name : String) : Option Node := d.tree.get? (loc ++ [name])

namespace Settled

variable (h : Settled s d loc) (hn : Path.IsPlain name) (hup : name ≠ "..")
include h

theorem isDirectory : (d.tree.get? loc).any Node.isDirectory = true := by
  obtain ⟨mode, hmode⟩ := h.directory
  rw [hmode]
  rfl

/-- Every node in the directory is a file. -/
theorem file_of_node {node : Node} (hnode : nodeAt d loc name = some node) :
    ∃ content mode, node = .file content mode := by
  have hfile := h.files name node hnode
  cases node with
  | file content mode => exact ⟨content, mode, rfl⟩
  | _ => cases hfile

include hn hup

theorem locate_name : d.locate followLast (s.directory.child name).text =
    if maxPathBytes ≤ (s.directory.child name).text.utf8ByteSize ∨
        maxNameBytes < name.utf8ByteSize then .error .nameTooLong
    else .ok (loc ++ [name]) := by
  refine Disk.locate_in h.proper hn hup h.locate h.isDirectory fun _ target hlink => ?_
  obtain ⟨content, mode, hfile⟩ := h.file_of_node hlink
  cases hfile

theorem locate_fits (hf : Fits s name) :
    d.locate followLast (s.directory.child name).text = .ok (loc ++ [name]) := by
  rw [h.locate_name hn hup, if_neg]
  rintro (hlong | hlong)
  · exact absurd hf.1 (Nat.not_lt.mpr hlong)
  · exact absurd hf.2 (Nat.not_le.mpr hlong)

theorem locate_unfit (hf : ¬ Fits s name) :
    d.locate followLast (s.directory.child name).text = .error .nameTooLong := by
  rw [h.locate_name hn hup, if_pos]
  by_cases hpath : maxPathBytes ≤ (s.directory.child name).text.utf8ByteSize
  · exact .inl hpath
  · exact .inr (Nat.lt_of_not_le fun hname => hf ⟨Nat.lt_of_not_le hpath, hname⟩)

/-- What is at the path of a name is the node under the name. -/
theorem find_fits (hf : Fits s name) : d.find followLast (s.directory.child name).text =
    match nodeAt d loc name with
    | some node => .ok (loc ++ [name], node)
    | none => .error .noEntry := by
  have hl : d.locate followLast (s.directory.child name).text = .ok (loc ++ [name]) :=
    h.locate_fits hn hup hf
  unfold nodeAt
  cases hnode : d.tree.get? (loc ++ [name]) with
  | some node => exact Disk.find_of_locate hl hnode
  | none => exact Disk.find_vacant hl hnode

theorem find_unfit (hf : ¬ Fits s name) :
    d.find followLast (s.directory.child name).text = .error .nameTooLong := by
  have hl : d.locate followLast (s.directory.child name).text = .error .nameTooLong :=
    h.locate_unfit hn hup hf
  unfold Disk.find
  rw [hl]
  rfl

/-- **Writing to a name that fits** leaves a file with what was written under it. -/
theorem write_fits (hf : Fits s name) (data : Text.Bytes) :
    ∃ mode, d.write (s.directory.child name).text data =
      .ok { d with tree := d.tree.set (loc ++ [name]) (.file (.bytes data) mode) } := by
  have hl : d.locate true (s.directory.child name).text = .ok (loc ++ [name]) :=
    h.locate_fits hn hup hf
  cases hnode : nodeAt d loc name with
  | some node =>
    obtain ⟨content, mode, rfl⟩ := h.file_of_node hnode
    exact ⟨mode, Disk.write_file hl hnode⟩
  | none =>
    obtain ⟨mode, hmode⟩ := h.directory
    have hparts : (s.directory.child name).parts ≠ [] := by simp [Path.child_plain s.directory hn]
    have hend := Path.endsWith_text (h.proper.child hn) hparts
    have hvacant : d.tree.get? (loc ++ [name]) = none := hnode
    refine ⟨0o644, ?_⟩
    simp [Disk.write, hl, hvacant, hend, bind, Except.bind, Disk.place, hmode]

theorem write_unfit (hf : ¬ Fits s name) (data : Text.Bytes) :
    d.write (s.directory.child name).text data = .error .nameTooLong := by
  have hl : d.locate true (s.directory.child name).text = .error .nameTooLong :=
    h.locate_unfit hn hup hf
  simp [Disk.write, hl, bind, Except.bind]

/-- **Deleting a name that fits** takes away the file under it. -/
theorem unlink_fits (hf : Fits s name) {node : Node} (hnode : nodeAt d loc name = some node) :
    d.unlink (s.directory.child name).text =
      .ok { d with tree := d.tree.erase (loc ++ [name]) } := by
  obtain ⟨content, mode, rfl⟩ := h.file_of_node hnode
  have hfind : d.find false (s.directory.child name).text =
      .ok (loc ++ [name], .file content mode) := by
    rw [h.find_fits hn hup hf, hnode]
  simp [Disk.unlink, hfind, bind, Except.bind, Node.isDirectory]

end Settled

/-! ## 3. Reading -/

/-- What is read under a name depends on the node under it only. -/
theorem Settled.read_congr (h : Settled s d loc) (h' : Settled s d' loc) (hn : Path.IsPlain name)
    (hup : name ≠ "..") (hnode : nodeAt d' loc name = nodeAt d loc name) :
    read d' (s.directory.child name) = read d (s.directory.child name) := by
  have hstat : d'.stat (s.directory.child name).text = d.stat (s.directory.child name).text := by
    unfold Disk.stat
    by_cases hf : Fits s name
    · rw [h.find_fits hn hup hf, h'.find_fits hn hup hf, hnode]
    · rw [h.find_unfit hn hup hf, h'.find_unfit hn hup hf]
  unfold read Disk.exists? Disk.check Disk.readText Disk.read
  rw [hstat]

theorem Settled.held_congr (h : Settled s d loc) (h' : Settled s d' loc) (hn : Path.IsPlain name)
    (hup : name ≠ "..") (hnode : nodeAt d' loc name = nodeAt d loc name) (shape : Shape) :
    held d' (s.directory.child name) shape = held d (s.directory.child name) shape := by
  unfold held
  rw [h.read_congr h' hn hup hnode]

theorem tooDeep_iff {path : Path} :
    TooDeep d path ↔ ∃ fault, read d path = .error fault ∧ isReported fault = false :=
  read_fails_iff.symm

theorem not_tooDeep {path : Path} {found : Option Json} (h : read d path = .ok found) :
    ¬ TooDeep d path := by
  intro hdeep
  obtain ⟨fault, hfails, -⟩ := tooDeep_iff.mp hdeep
  rw [h] at hfails
  cases hfails

theorem held_of_read {path : Path} {document : Json} {shape : Shape}
    (h : read d path = .ok (some document)) (hs : shape.admits document = true) :
    held d path shape = document := by
  unfold held
  rw [h]
  exact if_pos hs

theorem Settled.tooDeep_congr (h : Settled s d loc) (h' : Settled s d' loc)
    (hn : Path.IsPlain name) (hup : name ≠ "..") (hnode : nodeAt d' loc name = nodeAt d loc name) :
    TooDeep d' (s.directory.child name) ↔ TooDeep d (s.directory.child name) := by
  rw [tooDeep_iff, tooDeep_iff, h.read_congr h' hn hup hnode]

/-- The bytes of a document in a file. -/
def fileBytes (document : Json) : Text.Bytes := Text.encode (document.text (some 2))

/-- **A file that holds the text of a document within the limits is read as the document.** -/
theorem Settled.read_file (h : Settled s d loc) (hn : Path.IsPlain name) (hup : name ≠ "..")
    (hf : Fits s name) (hname : Nameable (s.directory.child name).text) {document : Json}
    (hdoc : Json.Readable Json.maxNesting document) {mode : Nat}
    (hnode : nodeAt d loc name = some (.file (.bytes (fileBytes document)) mode)) :
    read d (s.directory.child name) = .ok (some document.reread) := by
  have hpath := Disk.pathFault?_none_iff.mpr hname
  have hstat : d.stat (s.directory.child name).text =
      .ok (.file (.bytes (fileBytes document)) mode) := by
    unfold Disk.stat
    rw [h.find_fits hn hup hf, hnode]
    rfl
  have hthere : d.exists? (s.directory.child name) = .ok true := Disk.check_of_stat hpath hstat
  have hread : d.read (s.directory.child name).text = .ok (fileBytes document) := by
    unfold Disk.read
    rw [hstat]
    rfl
  have htext : d.readText (s.directory.child name).text = .ok (document.text (some 2)) := by
    unfold Disk.readText
    rw [hpath, hread]
    simp only [Errno.name, bind, Except.bind, pure, Except.pure, fileBytes, Text.decode?_encode]
    rw [Text.unifyNewlines_of_not_mem (Json.noReturn_text _ _), String.ofList_toList]
  rw [read_there hthere htext, Json.parse_text _ hdoc]
  rfl

end ErrorStore

end Dissect
