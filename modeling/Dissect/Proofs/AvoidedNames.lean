/-
# Paths that avoid a name

Take a name that no link leads through, and two disks that are the same except at places below that
name.  Whatever is asked along a path that does not go through the name has the same answer on both
(`Disk.AlikeBeside`): where the path leads, what is there, what it is without links, and which
module is found along it.

The one invariant behind all of this is that a walk which starts off the name stays off it: a step
down takes a name of the path, a step through a link takes the names of its target, and no other
name comes in.
-/
import Dissect.Proofs.Diagnoses
import Mathlib.Data.List.Basic

namespace Dissect

/-! ## 1. Texts that go through a name -/

namespace Text

/-- The characters of a piece are characters of the whole. -/
theorem mem_of_mem_splitChars {sep c : Char} : ∀ {cs piece : List Char},
    piece ∈ splitChars sep cs → c ∈ piece → c ∈ cs
  | [], piece, hp, hc => by
    rw [splitChars, List.mem_singleton] at hp
    rw [hp] at hc
    exact hc
  | first :: rest, piece, hp, hc => by
    obtain ⟨head, pieces, hsplit, -⟩ := ModuleTools.splitChars_head sep rest
    have hrest : ∀ other ∈ head :: pieces, c ∈ other → c ∈ rest := fun other hm hc =>
      mem_of_mem_splitChars (hsplit ▸ hm) hc
    by_cases hs : first = sep
    · simp only [splitChars, hs, if_true, hsplit] at hp
      rcases List.mem_cons.mp hp with rfl | hp
      · cases hc
      · exact List.mem_cons_of_mem _ (hrest piece hp hc)
    · simp only [splitChars, hs, if_false, hsplit] at hp
      rcases List.mem_cons.mp hp with rfl | hp
      · rcases List.mem_cons.mp hc with rfl | hc
        · exact List.mem_cons_self
        · exact List.mem_cons_of_mem _ (hrest head List.mem_cons_self hc)
      · exact List.mem_cons_of_mem _ (hrest piece (List.mem_cons_of_mem _ hp) hc)

/-- What is cut at a separator are the pieces before it and those after it. -/
theorem splitChars_append_sep (sep : Char) (after : List Char) : ∀ before : List Char,
    splitChars sep (before ++ sep :: after) = splitChars sep before ++ splitChars sep after
  | [] => by simp [splitChars]
  | c :: rest => by
    have ih := splitChars_append_sep sep after rest
    obtain ⟨piece, pieces, hsplit, -⟩ := ModuleTools.splitChars_head sep rest
    by_cases hc : c = sep
    · simp [splitChars, hc, ih]
    · simp [splitChars, hc, ih, hsplit]

/-- A text is cut at a slash into the pieces before it and those after it. -/
theorem splitAt_slash (front rest : String) :
    splitAt (front ++ "/" ++ rest) '/' = splitAt front '/' ++ splitAt rest '/' := by
  have hchars : (front ++ "/" ++ rest).toList = front.toList ++ '/' :: rest.toList := by
    rw [String.toList_append, String.toList_append, List.append_assoc]
    rfl
  unfold splitAt
  rw [hchars, splitChars_append_sep, List.map_append]

/-- Characters that do not separate lengthen the last piece. -/
theorem splitChars_append_last {sep : Char} {tail : List Char} (h : sep ∉ tail) :
    ∀ cs : List Char, ∃ front last, splitChars sep cs = front ++ [last] ∧
      splitChars sep (cs ++ tail) = front ++ [last ++ tail]
  | [] => ⟨[], [], rfl, splitChars_of_not_mem h⟩
  | c :: rest => by
    obtain ⟨front, last, hrest, hmore⟩ := splitChars_append_last h rest
    by_cases hc : c = sep
    · exact ⟨[] :: front, last, by simp [splitChars, hc, hrest],
        by simp [splitChars, hc, hmore]⟩
    · cases front with
      | nil => exact ⟨[], c :: last, by simp [splitChars, hc, hrest],
          by simp [splitChars, hc, hmore]⟩
      | cons first front =>
        exact ⟨(c :: first) :: front, last, by simp [splitChars, hc, hrest],
          by simp [splitChars, hc, hmore]⟩

end Text

namespace Files

/-- A text, read as a path, goes through a name. -/
def Through (name text : String) : Prop := name ∈ Text.splitAt text '/'

variable {name : String}

theorem through_slash (front rest : String) :
    Through name (front ++ "/" ++ rest) ↔ Through name front ∨ Through name rest := by
  unfold Through
  rw [Text.splitAt_slash, List.mem_append]

theorem through_whole {text : String} (h : '/' ∉ text.toList) :
    Through name text ↔ name = text := by
  unfold Through Text.splitAt
  rw [Text.splitChars_of_not_mem h]
  simp

theorem not_through_slashes (hn : Path.IsPlain name) (anchor : Anchor) :
    ¬ Through name anchor.text := by
  intro h
  cases anchor <;> simp [Through, Text.splitAt, Anchor.text, Text.splitChars, hn.1] at h

/-- The names that a text leads through are names that it goes through, or a dot. -/
theorem through_of_mem_rawNames {text : String} (h : name ∈ rawNames text) :
    Through name text ∨ name = "." := by
  unfold rawNames at h
  simp only at h
  split at h
  · rcases List.mem_append.mp h with hname | hdot
    · exact .inl (List.mem_filter.mp hname).1
    · exact .inr (List.mem_singleton.mp hdot)
  · exact .inl (List.mem_filter.mp h).1

/-- A file in a directory is reached through the names of both. -/
theorem through_inDirectory {directory file : String}
    (h : Through name (Command.inDirectory directory file)) :
    Through name directory ∨ Through name file := by
  unfold Command.inDirectory at h
  split at h
  · rename_i hwhere
    rcases Bool.or_eq_true_iff.mp hwhere with hempty | hslash
    · rw [of_decide_eq_true hempty, String.empty_append] at h
      exact .inr h
    · obtain ⟨front, hfront⟩ := List.isSuffixOf_iff_suffix.mp hslash
      have hdirectory : directory = String.ofList front ++ "/" ++ "" := by
        rw [String.append_empty, ← String.toList_inj, String.toList_append, String.toList_ofList,
          hfront]
      rw [hdirectory, String.append_empty] at h
      rw [hdirectory]
      rcases (through_slash _ _).mp h with hd | hf
      · exact .inl ((through_slash _ _).mpr (.inl hd))
      · exact .inr hf
  · exact (through_slash _ _).mp h

/-- With a suffix, a text goes through the same names and one that ends with the suffix. -/
theorem through_suffix {text suffix : String} (hs : '/' ∉ suffix.toList)
    (h : Through name (text ++ suffix)) :
    Through name text ∨ suffix.toList <:+ name.toList := by
  obtain ⟨front, last, hsplit, hmore⟩ := Text.splitChars_append_last hs text.toList
  unfold Through Text.splitAt at h ⊢
  rw [String.toList_append, hmore, List.map_append, List.mem_append] at h
  rw [hsplit, List.map_append, List.mem_append]
  rcases h with hfront | hlast
  · exact .inl (.inl hfront)
  · refine .inr ⟨last, ?_⟩
    rw [List.mem_singleton.mp hlast, String.toList_ofList]

end Files

/-- None of the components of a path is the name, and none holds a slash. -/
structure Path.Avoids (name : String) (p : Path) : Prop where
  other : name ∉ p.parts
  whole : ∀ part ∈ p.parts, '/' ∉ part.toList

namespace Path.Avoids

open Files (Through through_slash through_whole not_through_slashes)

variable {name : String} {p : Path}

theorem of_proper (hp : p.Proper) (hn : name ∉ p.parts) : p.Avoids name :=
  ⟨hn, fun part hm => (hp part hm).2.2⟩

/-- The text of a path that avoids a name does not go through it. -/
theorem not_through (h : p.Avoids name) (hn : IsPlain name) : ¬ Through name p.text := by
  obtain ⟨anchor, parts⟩ := p
  cases parts with
  | nil =>
    cases anchor with
    | relative =>
      intro hdot
      exact hn.2.1 ((through_whole (by decide)).mp (show Through name "." from hdot))
    | root => exact not_through_slashes hn .root
    | doubleRoot => exact not_through_slashes hn .doubleRoot
  | cons first rest =>
    have hjoin : ¬ Through name (Text.join "/" (first :: rest)) := by
      unfold Through
      rw [Text.splitAt_join (by simp) h.whole]
      exact h.other
    rw [text_of_parts (by simp)]
    cases anchor with
    | relative => simpa [Anchor.text] using hjoin
    | root =>
      intro hthrough
      rcases (through_slash "" _).mp hthrough with hempty | hrest
      · exact hn.1 ((through_whole (by decide)).mp (show Through name "" from hempty))
      · exact hjoin hrest
    | doubleRoot =>
      intro hthrough
      rcases (through_slash "/" _).mp hthrough with hempty | hrest
      · exact not_through_slashes hn .root hempty
      · exact hjoin hrest

theorem child (h : p.Avoids name) {file : String} (hf : IsPlain file) (hne : name ≠ file) :
    (p.child file).Avoids name := by
  rw [child_plain p hf]
  refine ⟨?_, ?_⟩
  · simpa [hne] using h.other
  · intro part hm
    rcases List.mem_append.mp hm with hold | hnew
    · exact h.whole part hold
    · rw [List.mem_singleton.mp hnew]
      exact hf.2.2

end Path.Avoids

namespace Files

open Dissect.Path (Avoids)

variable {name : String}

/-! ## 2. Walks -/

/-- Where a walk stops is off the name, and so is what it has still to follow. -/
def Stop.Avoids (name : String) : Stop → Prop
  | .done loc => name ∉ loc
  | .link directory target rest =>
    name ∉ directory ∧ ¬ Through name target ∧ name ∉ rest

/-- The disks are the same except below a name that no link and no working directory leads
through. -/
structure Disk.AlikeBeside (name : String) (d d' : Disk) : Prop where
  plain : Path.IsPlain name
  up : name ≠ ".."
  nodes : ∀ l, name ∉ l → d'.tree.get? l = d.tree.get? l
  links : ∀ l target, name ∉ l → d.tree.get? l = some (.link target) → ¬ Through name target
  cwd : d'.cwd = d.cwd
  away : name ∉ d.cwd
  whole : ∀ part ∈ d.cwd, '/' ∉ part.toList
  denied : d'.denied = d.denied

namespace Disk.AlikeBeside

variable {d d' : Disk}

theorem not_mem_rawNames (h : AlikeBeside name d d') {text : String} (ht : ¬ Through name text) :
    name ∉ rawNames text := fun hm =>
  (through_of_mem_rawNames hm).elim ht h.plain.2.1

theorem descend (h : AlikeBeside name d d') (followLast : Bool) : ∀ {names : List String} {loc : Location},
    name ∉ names → name ∉ loc →
      Files.descend d'.tree followLast loc names = Files.descend d.tree followLast loc names ∧
      ∀ stop, Files.descend d.tree followLast loc names = .ok stop → stop.Avoids name
  | [], loc, _, hloc => ⟨rfl, fun stop hd => by cases hd; exact hloc⟩
  | first :: rest, loc, hnames, hloc => by
    have hfirst : name ≠ first := fun he => hnames (he ▸ List.mem_cons_self)
    have hrest : name ∉ rest := fun hm => hnames (List.mem_cons_of_mem _ hm)
    have hbelow : name ∉ loc ++ [first] := by simpa [hfirst] using hloc
    have habove : name ∉ loc.dropLast := fun hm => hloc (List.dropLast_subset _ hm)
    unfold Files.descend
    rw [h.nodes loc hloc, h.nodes _ hbelow]
    split
    · exact ⟨rfl, fun stop hd => by cases hd⟩
    split
    · exact h.descend followLast hrest hloc
    split
    · exact h.descend followLast hrest habove
    split
    · exact ⟨rfl, fun stop hd => by cases hd⟩
    split
    · refine ⟨rfl, fun stop hd => ?_⟩
      split at hd <;> cases hd
      exact hbelow
    · rename_i target htarget
      refine ⟨rfl, fun stop hd => ?_⟩
      split at hd <;> cases hd
      · exact hbelow
      · exact ⟨hloc, h.links _ target hbelow htarget, hrest⟩
    · exact h.descend followLast hrest hbelow

theorem follow (h : AlikeBeside name d d') (followLast : Bool) : ∀ {links : Nat} {loc : Location}
    {names : List String}, name ∉ names → name ∉ loc →
      Files.follow d'.tree followLast links loc names =
          Files.follow d.tree followLast links loc names ∧
      ∀ reached, Files.follow d.tree followLast links loc names = .ok reached → name ∉ reached
  | links, loc, names, hnames, hloc => by
    obtain ⟨hsame, havoids⟩ := h.descend followLast hnames hloc
    unfold Files.follow
    rw [hsame]
    cases hd : Files.descend d.tree followLast loc names with
    | error e => exact ⟨rfl, fun reached hf => by cases hf⟩
    | ok stop =>
      have hstop := havoids stop hd
      cases stop with
      | done reached => exact ⟨rfl, fun _ hf => by cases hf; exact hstop⟩
      | link directory target rest =>
        obtain ⟨hdirectory, htarget, hrest⟩ := hstop
        cases links with
        | zero => exact ⟨rfl, fun reached hf => by cases hf⟩
        | succ links =>
          refine h.follow followLast ?_ ?_
          · rw [List.mem_append]
            exact fun hm => hm.elim (h.not_mem_rawNames htarget) hrest
          · unfold rawStart
            split
            · simp
            · exact hdirectory

variable {path : String}

/-- **A path that does not go through the name leads to the same place**, which is off the name. -/
theorem locate (h : AlikeBeside name d d') (followLast : Bool) (hp : ¬ Through name path) :
    d'.locate followLast path = d.locate followLast path ∧
      ∀ loc, d.locate followLast path = .ok loc → name ∉ loc := by
  have hstart : name ∉ rawStart d.cwd path := by
    unfold rawStart
    split
    · simp
    · exact h.away
  unfold Disk.locate
  rw [h.cwd]
  split
  · exact ⟨rfl, fun _ hl => by cases hl⟩
  split
  · exact ⟨rfl, fun _ hl => by cases hl⟩
  · exact h.follow followLast (h.not_mem_rawNames hp) hstart

/-! ## 3. Questions about what is there -/

theorem find {followLast : Bool} (h : AlikeBeside name d d') (hp : ¬ Through name path) :
    d'.find followLast path = d.find followLast path := by
  obtain ⟨hsame, haway⟩ := h.locate followLast hp
  unfold Disk.find
  rw [hsame]
  cases hl : d.locate followLast path with
  | error e => rfl
  | ok loc =>
    simp only [bind, Except.bind]
    rw [h.nodes loc (haway loc hl)]

theorem stat (h : AlikeBeside name d d') (hp : ¬ Through name path) :
    d'.stat path = d.stat path := by
  unfold Disk.stat
  rw [h.find hp]

theorem lstat (h : AlikeBeside name d d') (hp : ¬ Through name path) :
    d'.lstat path = d.lstat path := by
  unfold Disk.lstat
  rw [h.find hp]

theorem canRead (h : AlikeBeside name d d') (hp : ¬ Through name path) :
    d'.canRead path = d.canRead path := by
  unfold Disk.canRead
  rw [h.denied, h.stat hp]

theorem canExecute (h : AlikeBeside name d d') (hp : ¬ Through name path) :
    d'.canExecute path = d.canExecute path := by
  unfold Disk.canExecute
  rw [h.denied, h.stat hp]

theorem check (h : AlikeBeside name d d') {p : Path} (hp : p.Avoids name)
    (property : Node → Bool) : d'.check p property = d.check p property := by
  unfold Disk.check
  rw [h.stat (hp.not_through h.plain)]

/-- A directory lists the same other names. -/
theorem names (h : AlikeBeside name d d') (hp : ¬ Through name path) {file : String}
    (hf : name ≠ file) :
    ((d'.names path).toOption.getD []).contains file =
      ((d.names path).toOption.getD []).contains file := by
  obtain ⟨-, haway⟩ := h.locate true hp
  unfold Disk.names
  rw [h.find hp]
  cases hfind : d.find true path with
  | error e => rfl
  | ok found =>
    obtain ⟨loc, node⟩ := found
    have hloc : name ∉ loc := haway loc (Disk.find_ok hfind).1
    have hbelow : name ∉ loc ++ [file] := by simpa [hf] using hloc
    simp only [bind, Except.bind]
    split
    · rw [Bool.eq_iff_iff]
      simp only [Except.toOption, Option.getD_some, List.contains_iff_mem, Tree.mem_children_iff,
        h.nodes _ hbelow]
    · rfl

/-! ## 4. Paths without links -/

/-- A link on the way is the same, and its target does not go through the name. -/
theorem linkAt? (h : AlikeBeside name d d') {p : Path} (hp : p.Avoids name) :
    Files.linkAt? d' p = Files.linkAt? d p ∧
      ∀ target, Files.linkAt? d p = some target → ¬ Through name target := by
  have hthrough := hp.not_through h.plain
  obtain ⟨-, haway⟩ := h.locate false hthrough
  unfold Files.linkAt?
  rw [h.lstat hthrough]
  refine ⟨rfl, fun target htarget => ?_⟩
  split at htarget
  · rename_i found hfound
    cases htarget
    unfold Disk.lstat at hfound
    cases hfind : d.find false p.text with
    | error e => rw [hfind] at hfound; cases hfound
    | ok place =>
      obtain ⟨loc, node⟩ := place
      rw [hfind] at hfound
      cases hfound
      obtain ⟨hl, hnode⟩ := Disk.find_ok hfind
      exact h.links loc _ (haway loc hl) hnode
  · cases htarget

end Disk.AlikeBeside

/-- Names that can be taken one after the other: none is the given one, none holds a slash. -/
def Steps (name : String) (names : List String) : Prop :=
  name ∉ names ∧ ∀ part ∈ names, '/' ∉ part.toList

theorem Steps.tail {first : String} {rest : List String} (h : Steps name (first :: rest)) :
    Steps name rest :=
  ⟨fun hm => h.1 (List.mem_cons_of_mem _ hm), fun part hm => h.2 part (List.mem_cons_of_mem _ hm)⟩

theorem avoids_extended {p : Path} (hp : p.Avoids name) {names : List String}
    (hn : Steps name names) : (extended p names).Avoids name := by
  have hadded : ∀ part ∈ names.filter (· != ""), part ∈ names := fun part hm =>
    (List.mem_filter.mp hm).1
  unfold extended
  simp only
  split
  · exact ⟨fun hm => hn.1 (hadded name hm), fun part hm => hn.2 part (hadded part hm)⟩
  · refine ⟨fun hm => ?_, fun part hm => ?_⟩
    · exact (List.mem_append.mp hm).elim hp.other fun hm => hn.1 (hadded name hm)
    · exact (List.mem_append.mp hm).elim (hp.whole part) fun hm => hn.2 part (hadded part hm)

theorem avoids_above {p : Path} (hp : p.Avoids name) (hup : name ≠ "..") :
    (above p).Avoids name := by
  have hslash : '/' ∉ "..".toList := by decide
  unfold above
  split
  · exact ⟨by simpa using hup, by simp⟩
  · refine ⟨by simpa [hup] using hp.other, fun part hm => ?_⟩
    rcases List.mem_append.mp hm with hold | hnew
    · exact hp.whole part hold
    · rw [List.mem_singleton.mp hnew]
      exact hslash
  · exact ⟨fun hm => hp.other (List.dropLast_subset _ hm),
      fun part hm => hp.whole part (List.dropLast_subset _ hm)⟩

theorem steps_splitAt {text : String} (ht : ¬ Through name text) :
    Steps name (Text.splitAt text '/') := by
  refine ⟨ht, fun part hm => ?_⟩
  obtain ⟨piece, hpiece, rfl⟩ := List.mem_map.mp hm
  rw [String.toList_ofList]
  exact Text.not_mem_of_mem_splitChars hpiece

/-- The names of a target can be taken one after the other from where it starts. -/
theorem avoids_targetSteps {directory : Path} (hd : directory.Avoids name) {target : String}
    (ht : ¬ Through name target) :
    (targetSteps directory target).1.Avoids name ∧ Steps name (targetSteps directory target).2 := by
  have hsteps := steps_splitAt ht
  unfold targetSteps
  split
  · rename_i second rest hsplit
    rw [hsplit] at hsteps
    exact ⟨⟨by simp, by simp⟩, hsteps.tail⟩
  · exact ⟨hd, hsteps⟩

/-- The paths that links are known to lead to avoid the name. -/
def Replaced.Avoid (name : String) (replaced : Replaced) : Prop :=
  ∀ key known, replaced.lookup key = some (some known) → known.Avoids name

theorem Replaced.Avoid.cons {replaced : Replaced} (h : Replaced.Avoid name replaced) {key : Path}
    {known? : Option Path} (hk : ∀ known, known? = some known → known.Avoids name) :
    Replaced.Avoid name ((key, known?) :: replaced) := by
  intro other known hlookup
  rcases Assoc.lookup_cons_some hlookup with ⟨-, hknown⟩ | hlookup
  · exact hk known hknown
  · exact h other known hlookup

/-- Links in links to a depth are replaced alike on two disks, along any names that can be taken. -/
def ReplacesAlike (name : String) (d d' : Disk) (depth : Nat) : Prop :=
  ∀ (replaced : Replaced) (path : Path) (names : List String),
    Replaced.Avoid name replaced → path.Avoids name → Steps name names →
      replaceLinks d' depth replaced path names = replaceLinks d depth replaced path names ∧
        (replaceLinks d depth replaced path names).path.Avoids name ∧
        Replaced.Avoid name (replaceLinks d depth replaced path names).replaced

/-- Replacing a link needs the links in its target only, which are less deep.  The induction is on
the names that are still to be taken. -/
theorem replacesAlike_of_inner {d d' : Disk} (h : d.AlikeBeside name d') {depth : Nat}
    (hinner : ∀ inner, depth = inner + 1 → ReplacesAlike name d d' inner) :
    ReplacesAlike name d d' depth := by
  intro replaced path names
  induction names generalizing replaced path with
  | nil =>
    intro hr hp _
    rw [replaceLinks, replaceLinks]
    exact ⟨rfl, hp, hr⟩
  | cons first rest ih =>
    intro hr hp hn
    have hrest := hn.tail
    have hfirst : Steps name [first] :=
      ⟨fun hm => hn.1 (by rw [List.mem_singleton.mp hm]; exact List.mem_cons_self),
        fun part hm => hn.2 part (by rw [List.mem_singleton.mp hm]; exact List.mem_cons_self)⟩
    have hnext := avoids_extended hp hfirst
    obtain ⟨hlink, htarget⟩ := h.linkAt? hnext
    rw [replaceLinks, replaceLinks]
    simp only [hlink]
    split
    · exact ih replaced path hr hp hrest
    split
    · exact ih replaced (above path) hr (avoids_above hp h.up) hrest
    split
    · exact ih replaced _ hr hnext hrest
    rename_i target hfound
    split
    · rename_i known hknown
      exact ih replaced known hr (hr _ known hknown) hrest
    · exact ⟨rfl, avoids_extended hnext hrest, hr⟩
    cases depth with
    | zero => exact ⟨rfl, avoids_extended hnext hrest, hr⟩
    | succ inner =>
      obtain ⟨hstart, hsteps⟩ := avoids_targetSteps hp (htarget target hfound)
      obtain ⟨hsame, hpath, htable⟩ := hinner inner rfl
        ((extended path [first], none) :: replaced) (targetSteps path target).1
        (targetSteps path target).2 (hr.cons fun _ he => by cases he) hstart hsteps
      simp only [hsame]
      split
      · exact ih _ _ (htable.cons fun _ he => by cases he; exact hpath) hpath hrest
      · exact ⟨rfl, avoids_extended hpath hrest, htable⟩

/-- **Links are replaced alike** along names that can be taken. -/
theorem replacesAlike {d d' : Disk} (h : d.AlikeBeside name d') : ∀ depth : Nat,
    ReplacesAlike name d d' depth
  | 0 => replacesAlike_of_inner h fun _ he => by cases he
  | depth + 1 => replacesAlike_of_inner h fun _ he => by
    cases he
    exact replacesAlike h depth

/-- **A path that avoids the name is the same without links**, and still avoids it then. -/
theorem Disk.AlikeBeside.resolve {d d' : Disk} (h : d.AlikeBeside name d') {p : Path}
    (hp : p.Avoids name) :
    d'.resolve p = d.resolve p ∧ ∀ real, d.resolve p = .ok real → real.Avoids name := by
  obtain ⟨start, hstart, havoids⟩ : ∃ start : Path,
      (if p.isAbsolute then ⟨.root, []⟩ else ⟨.relative, []⟩ : Path) = start ∧
        start.Avoids name :=
    ⟨_, rfl, by split <;> exact ⟨by simp, by simp⟩⟩
  obtain ⟨hsame, hpath, -⟩ := replacesAlike h maxReplacements [] start p.parts
    (fun _ _ hl => by cases hl) havoids ⟨hp.other, hp.whole⟩
  have hlocation : d'.realLocation p = d.realLocation p := by
    unfold Disk.realLocation Disk.locationOf
    simp only [hstart, hsame, h.cwd]
  have hpart : ∀ part ∈ d.realLocation p, part ∈ d.cwd ∨
      part ∈ (Files.replaceLinks d maxReplacements [] start p.parts).path.parts := by
    intro part hm
    unfold Disk.realLocation Disk.locationOf at hm
    simp only [hstart] at hm
    have hcollapsed := (Path.mem_collapse hm).1
    split at hcollapsed
    · exact .inr hcollapsed
    · exact List.mem_append.mp hcollapsed
  have hreal : (⟨.root, d.realLocation p⟩ : Path).Avoids name :=
    ⟨fun hm => (hpart name hm).elim h.away hpath.other,
      fun part hm => (hpart part hm).elim (h.whole part) (hpath.whole part)⟩
  have hstat := h.stat (hreal.not_through h.plain)
  refine ⟨?_, fun real hresolve => ?_⟩
  · unfold Disk.resolve
    simp only [hlocation, hstat]
  · obtain ⟨-, rfl, -⟩ := Disk.resolve_ok_iff.mp hresolve
    exact hreal

end Files

/-! ## 5. Finding a module -/

namespace Import

open Files (Disk Through through_inDirectory through_slash through_suffix through_whole)

variable {name : String} {d d' : Disk}

/-- A name that a code file cannot have. -/
def NoCodeFile (name : String) : Prop :=
  ∀ suffix ∈ CodeForm.suffixes, ¬ suffix.1.toList <:+ name.toList

theorem not_through_suffix (hn : NoCodeFile name) {start : String} (hs : ¬ Through name start)
    {suffix : String × CodeForm} (hm : suffix ∈ CodeForm.suffixes) :
    ¬ Through name (start ++ suffix.1) := by
  have hslash : ∀ suffix ∈ CodeForm.suffixes, '/' ∉ suffix.1.toList := by decide
  exact fun h => (through_suffix (hslash suffix hm) h).elim hs (hn suffix hm)

theorem codeFile?_beside (h : d.AlikeBeside name d') (hn : NoCodeFile name)
    (listed listed' : String → Bool)
    (hl : ∀ suffix ∈ CodeForm.suffixes, listed' suffix.1 = listed suffix.1) {start : String}
    (hs : ¬ Through name start) : codeFile? d' listed' start = codeFile? d listed start := by
  unfold codeFile?
  rw [← List.head?_filterMap, ← List.head?_filterMap]
  refine congrArg List.head? (List.filterMap_congr fun suffix hm => ?_)
  have hfile : isFileAt d' (start ++ suffix.1) = isFileAt d (start ++ suffix.1) := by
    unfold isFileAt
    rw [h.stat (not_through_suffix hn hs hm)]
  simp only [hl suffix hm, hfile]

/-- An entry of a search path stands for the same directory, which does not go through the name if
the entry does not. -/
theorem directoryOf_beside (h : d.AlikeBeside name d') {entry : String}
    (hentry : ¬ Through name entry) :
    directoryOf d' entry = directoryOf d entry ∧ ¬ Through name (directoryOf d entry) := by
  have hworking : ¬ Through name (Path.text ⟨.root, d.cwd⟩) :=
    Path.Avoids.not_through ⟨h.away, h.whole⟩ h.plain
  have hrest : ¬ Through name
      (if Text.startsWith entry "./" then String.ofList (entry.toList.drop 2) else entry) := by
    split
    · rename_i hdot
      obtain ⟨rest, hchars⟩ := List.isPrefixOf_iff_prefix.mp hdot
      have hwhole : entry = "." ++ "/" ++ String.ofList rest := by
        apply String.toList_inj.mp
        rw [String.toList_append, String.toList_ofList]
        exact hchars.symm
      have hdropped : entry.toList.drop 2 = rest := by
        rw [← hchars]
        rfl
      rw [hdropped]
      exact fun ht => hentry (hwhole ▸ (through_slash "." _).mpr (.inr ht))
    · exact hentry
  unfold directoryOf
  rw [h.cwd]
  refine ⟨rfl, ?_⟩
  split
  · exact hentry
  · simp only
    split
    · exact hworking
    · exact fun ht => (through_inDirectory ht).elim hworking hrest

/-- **The same module is found** in directories and under a component that do not go through the
name. -/
theorem find_beside (h : d.AlikeBeside name d') (hn : NoCodeFile name)
    (hi : ¬ Through name "__init__") {component : String}
    (hc : ¬ Through name component) {searchPath : List String}
    (hp : ∀ entry ∈ searchPath, ¬ Through name entry) :
    find d' component searchPath = find d component searchPath := by
  have hoffer : ∀ entry ∈ searchPath, findIn d' (directoryOf d' entry) component =
      findIn d (directoryOf d entry) component := by
    intro entry hm
    obtain ⟨hsame, hdirectory⟩ := directoryOf_beside h (hp entry hm)
    rw [hsame]
    generalize directoryOf d entry = directory at hdirectory
    have hbase : ¬ Through name (Command.inDirectory directory component) := fun hb =>
      (through_inDirectory hb).elim hdirectory hc
    have hinit : ¬ Through name
        (Command.inDirectory (Command.inDirectory directory component) "__init__") := fun hb =>
      (through_inDirectory hb).elim hbase hi
    have hcomponent : name ≠ component := fun he =>
      hc (he ▸ (through_whole h.plain.2.2).mpr rfl)
    have hpackage := codeFile?_beside h hn (fun _ => true) (fun _ => true) (fun _ _ => rfl) hinit
    have hplain := codeFile?_beside h hn
      (fun suffix => ((d.names directory).toOption.getD []).contains (component ++ suffix))
      (fun suffix => ((d'.names directory).toOption.getD []).contains (component ++ suffix))
      (fun suffix hs => h.names hdirectory fun he =>
        hn suffix hs (by rw [he, String.toList_append]; exact List.suffix_append _ _)) hbase
    have hbare : isDirectoryAt d' (Command.inDirectory directory component) =
        isDirectoryAt d (Command.inDirectory directory component) := by
      unfold isDirectoryAt
      rw [h.stat hbase]
    unfold findIn
    simp only [h.names hdirectory hcomponent, hpackage, hplain, hbare]
  unfold find
  simp only [List.filterMap_congr hoffer]

end Import

end Dissect
