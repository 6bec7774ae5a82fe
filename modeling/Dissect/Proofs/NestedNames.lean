/-
# Names that lead further down

A name with a slash stands for a path that leads through a first component to others.  In a directory
that holds nothing but regular files such a path leads nowhere (`ErrorStore.Settled.locate_nested`):
its first component is missing, or a file that has nothing below it.  So the file of a record whose
operation has a slash in its name cannot be written (`Settled.write_nested`), whatever follows the
slash; steps up are never reached.  Likewise a pattern with a slash describes none of the names in a
directory (`describes_nested`).
-/
import Dissect.Proofs.UsableStores

namespace Dissect

open Files (Disk Location Tree Errno descend follow)

/-! ## 1. Components of a name -/

namespace Text

/-- A character that does not part a text stands in one of the pieces. -/
theorem mem_piece {sep c : Char} (hne : c ≠ sep) : ∀ {cs : List Char}, c ∈ cs →
    ∃ piece ∈ splitChars sep cs, c ∈ piece
  | d :: rest, hc => by
    obtain ⟨first, others, hsplit⟩ := splitChars_cons sep rest
    unfold splitChars
    by_cases hd : d = sep
    · have hrest := (List.mem_cons.mp hc).resolve_left fun he => hne (he.trans hd)
      obtain ⟨piece, hpiece, hmem⟩ := mem_piece hne hrest
      exact ⟨piece, by rw [if_pos hd]; exact List.mem_cons_of_mem _ hpiece, hmem⟩
    · rw [if_neg hd, hsplit]
      rcases List.mem_cons.mp hc with rfl | hrest
      · exact ⟨c :: first, List.mem_cons_self, List.mem_cons_self⟩
      · obtain ⟨piece, hpiece, hmem⟩ := mem_piece hne hrest
        rw [hsplit] at hpiece
        rcases List.mem_cons.mp hpiece with rfl | hpiece
        · exact ⟨d :: piece, List.mem_cons_self, List.mem_cons_of_mem _ hmem⟩
        · exact ⟨piece, List.mem_cons_of_mem _ hpiece, hmem⟩

end Text

namespace Path

/-- A piece with a character other than a dot is kept as a component. -/
theorem keeps_piece {piece : List Char} {c : Char} (h : c ∈ piece) (hdot : c ≠ '.') :
    (String.ofList piece != "" && String.ofList piece != ".") = true := by
  have hne : ∀ other : String, c ∉ other.toList → String.ofList piece ≠ other := by
    rintro other ho rfl
    rw [String.toList_ofList] at ho
    exact ho h
  rw [Bool.and_eq_true, bne_iff_ne, bne_iff_ne]
  exact ⟨hne "" (by simp), hne "." (by simp [hdot])⟩

/-- A name with something that counts before and behind a first slash has several components. -/
theorem partsOf_nested {name : String} {front back : List Char} {c : Char}
    (hname : name.toList = front ++ '/' :: back) (hslash : '/' ∉ front) (hfront : '_' ∈ front)
    (hback : c ∈ back) (hc : c ≠ '/' ∧ c ≠ '.') :
    ∃ rest, partsOf name = String.ofList front :: rest ∧ rest ≠ [] := by
  obtain ⟨piece, hpiece, hmem⟩ := Text.mem_piece hc.1 hback
  refine ⟨((Text.splitChars '/' back).map String.ofList).filter fun part =>
    part != "" && part != ".", ?_, ?_⟩
  · unfold partsOf Text.splitAt
    rw [hname, Text.splitChars_append back hslash, List.map_cons, List.filter_cons,
      if_pos (keeps_piece hfront (by decide))]
  · exact List.ne_nil_of_mem (List.mem_filter.mpr
      ⟨List.mem_map_of_mem hpiece, keeps_piece hmem hc.2⟩)

/-- Such a name leads through several components from where it stands. -/
theorem child_nested (base : Path) {name : String} {front back : List Char} {c : Char}
    (hname : name.toList = front ++ '/' :: back) (hslash : '/' ∉ front) (hfront : '_' ∈ front)
    (hback : c ∈ back) (hc : c ≠ '/' ∧ c ≠ '.') :
    ∃ first rest, base.child name = ⟨base.anchor, base.parts ++ first :: rest⟩ ∧
      (IsPlain first ∧ first ≠ "..") ∧ rest ≠ [] ∧ ∀ part ∈ rest, IsPlain part := by
  obtain ⟨rest, hparts, hrest⟩ := partsOf_nested hname hslash hfront hback hc
  have hanchor : anchorOf name = .relative := by
    unfold anchorOf
    rw [hname]
    cases front with
    | nil => cases hfront
    | cons d more =>
      have hd : d ≠ '/' := fun he => hslash (he ▸ List.mem_cons_self)
      simp [hd]
  have hproper := ofText_proper name
  rw [Proper, ofText, hparts, List.forall_mem_cons] at hproper
  obtain ⟨hfirst, hplain⟩ := hproper
  refine ⟨String.ofList front, rest, ?_, ⟨hfirst, fun he => ?_⟩, hrest, hplain⟩
  · rw [child, ofText, hanchor, hparts]
    rfl
  · have hl : (String.ofList front).toList = front := String.toList_ofList
    rw [he] at hl
    rw [← hl] at hfront
    exact absurd hfront (by decide)

end Path

/-! ## 2. Following them -/

namespace ErrorStore

variable {s : ErrorStore} {d : Disk} {loc : Location} {followLast : Bool} {host : Host}

/-- Nothing is reached through a name in a directory of files. -/
theorem Settled.not_follow (h : Settled s d loc) {links : ℕ} {first : String} {rest : List String}
    (hn : Path.IsPlain first) (hup : first ≠ "..") (hrest : rest ≠ []) (reached : Location) :
    follow d.tree followLast links loc (first :: rest) ≠ .ok reached := by
  intro hf
  rcases Files.passed_of_follow hf hn.2.1 hup hrest with hdir | ⟨target, hnode⟩
  · obtain ⟨mode, hnode⟩ := Files.Tree.directory_of_isDirectory hdir
    obtain ⟨_, _, hfile⟩ := h.file_of_node hnode
    cases hfile
  · obtain ⟨_, _, hfile⟩ := h.file_of_node hnode
    cases hfile

/-- **A name that leads through several components leads nowhere** in a directory of files. -/
theorem Settled.locate_nested (h : Settled s d loc) {name : String} {front back : List Char} {c : Char}
    (hname : name.toList = front ++ '/' :: back) (hslash : '/' ∉ front) (hfront : '_' ∈ front)
    (hback : c ∈ back) (hc : c ≠ '/' ∧ c ≠ '.') :
    ∃ e, d.locate followLast (s.directory.child name).text = .error e := by
  obtain ⟨first, rest, hchild, ⟨hn, hup⟩, hrest, hplain⟩ :=
    Path.child_nested s.directory hname hslash hfront hback hc
  rw [hchild]
  cases hl : d.locate followLast
      (Path.text ⟨s.directory.anchor, s.directory.parts ++ first :: rest⟩) with
  | error e => exact ⟨e, rfl⟩
  | ok reached =>
    obtain ⟨-, hshort, -⟩ := Disk.locate_ok h.locate
    obtain ⟨base, left, hbase, hleft⟩ := Disk.locate_append h.proper (List.cons_ne_nil _ _)
      (List.forall_mem_cons.mpr ⟨hn, hplain⟩) hshort hl
    cases h.locate.symm.trans hbase
    exact absurd hleft (h.not_follow hn hup hrest reached)

/-- **The file of a record cannot be written** if its operation has a slash in its name. -/
theorem Settled.write_nested (h : Settled s d loc) (moment : Moment) {operation : String}
    (hslash : '/' ∈ operation.toList) (n : ℕ) (data : Text.Bytes) :
    ∃ e, d.write (s.directory.child (recordName moment operation n)).text data = .error e := by
  obtain ⟨front, back, hsplit, hfront⟩ := List.eq_append_cons_of_mem hslash
  have hname : (recordName moment operation n).toList =
      (moment.compact.toList ++ '_' :: front) ++
        '/' :: (back ++ '_' :: ((idOf n).toList ++ ".json".toList)) := by
    simp [recordName, String.toList_append, hsplit]
  have hcompact : '/' ∉ moment.compact.toList := by
    simp [Moment.compact, slash_not_mem_int, slash_not_mem_two]
  have hback : '_' ∈ back ++ '_' :: ((idOf n).toList ++ ".json".toList) := by simp
  obtain ⟨e, he⟩ : ∃ e, d.locate true (s.directory.child (recordName moment operation n)).text =
      .error e := h.locate_nested hname (by simp [hcompact, hfront]) (by simp) hback (by decide)
  exact ⟨e, by simp [Disk.write, he, bind, Except.bind]⟩

/-- **The pattern for an id with a slash describes no name**: it would only describe names further
down. -/
theorem describes_nested {id : String} (hslash : '/' ∈ id.toList) (name : String) :
    describes id name = false := by
  obtain ⟨front, back, hsplit, hfront⟩ := List.eq_append_cons_of_mem hslash
  have hpattern : ("*_" ++ id ++ ".json").toList =
      ('*' :: '_' :: front) ++ '/' :: (back ++ ".json".toList) := by
    simp [String.toList_append, hsplit]
  have hback : 'j' ∈ back ++ ".json".toList := by simp
  obtain ⟨rest, hparts, hrest⟩ :=
    Path.partsOf_nested hpattern (by simp [hfront]) (by simp) hback (by decide)
  obtain ⟨next, more, rfl⟩ := List.exists_cons_of_ne_nil hrest
  unfold describes
  rw [hparts]

end ErrorStore

end Dissect
