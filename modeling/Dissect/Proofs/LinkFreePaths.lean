/-
# Where no link is left

A location is link-free if no link is at it or on the way to it, so that its path leads to it and
resolves to itself (`locate_linkFree`, `resolve_linkFree`).

Replacing the links of a path does not always leave such a location.  A link that is met while it is
being replaced ends the replacement: the names after it are taken as they are, and a `..` among them
takes the link away again, so the loop leaves no trace and the links in the rest stay.  Where that
does not happen every name of the path that is reached has been looked at and is no link (`Clear`),
and so the location is link-free, if the system could be asked (`Disk.linkFree_of_untangled`).
-/
import Dissect.Proofs.DisposableFiles

namespace Dissect

/-! ## 1. Components -/

namespace Path

/-- The components of the path are names, of which `.` and `..` are some. -/
def Named (p : Path) : Prop := ∀ part ∈ p.parts, part ≠ "" ∧ '/' ∉ part.toList

theorem collapse_concat {parts : List String} {name : String} (hn : IsPlain name ∧ name ≠ "..") :
    collapse (parts ++ [name]) = collapse parts ++ [name] := by
  simp [collapse, collapseStep, hn.1.2.1, hn.2]

theorem collapse_up (parts : List String) :
    collapse (parts ++ [".."]) = (collapse parts).dropLast := by
  simp [collapse, collapseStep]

end Path

namespace Files

variable {d : Disk} {t : Tree} {followLast : Bool} {loc front : Location} {names : List String}
  {name : String} {p : Path}

/-! ## 2. Link-free locations -/

/-- No link is at the location or on the way to it. -/
def Tree.LinkFree (t : Tree) (loc : Location) : Prop :=
  ∀ front target, front <+: loc → t.get? front ≠ some (.link target)

namespace Tree

theorem LinkFree.before (h : t.LinkFree loc) (hf : front <+: loc) : t.LinkFree front :=
  fun other target ho => h other target (ho.trans hf)

theorem LinkFree.concat (h : t.LinkFree loc)
    (hn : ∀ target, t.get? (loc ++ [name]) ≠ some (.link target)) :
    t.LinkFree (loc ++ [name]) := by
  intro front target hf
  rcases List.prefix_concat_iff.mp hf with rfl | hf
  · exact hn target
  · exact h front target hf

theorem WellFormed.directory_prefix (h : t.WellFormed) (hf : front <+: loc)
    (hdir : (t.get? loc).any Node.isDirectory = true) :
    (t.get? front).any Node.isDirectory = true := by
  obtain ⟨rest, rfl⟩ := hf
  exact h.directory_before hdir

/-- In a proper tree no link is on the way to a directory. -/
theorem WellFormed.linkFree (h : t.WellFormed) (hdir : (t.get? loc).any Node.isDirectory = true) :
    t.LinkFree loc := by
  intro front target hf hlink
  have habove := h.directory_prefix hf hdir
  rw [hlink] at habove
  cases habove

end Tree

/-- A walk that meets no link goes along its names. -/
theorem Descends.linkFree {stop : Stop} (h : Descends t followLast loc names stop)
    (hplain : ∀ name ∈ names, Path.IsPlain name ∧ name ≠ "..") (hfree : t.LinkFree (loc ++ names)) :
    stop = .done (loc ++ names) := by
  induction h with
  | nil loc => rw [List.append_nil]
  | @pass loc next name rest stop hpass _ ih =>
    obtain ⟨hname, hrest⟩ := List.forall_mem_cons.mp hplain
    cases hpass with
    | dot => exact absurd rfl hname.1.2.1
    | up => exact absurd rfl hname.2
    | down =>
      rw [List.append_cons] at hfree ⊢
      exact ih hrest hfree
  | last => rfl
  | @link loc name target rest _ hn _ =>
    rw [List.append_cons] at hfree
    exact absurd hn (hfree (loc ++ [name]) target (List.prefix_append _ _))

/-- Following the names of a link-free location leads to it, or fails, but not for its links. -/
theorem follow_linkFree {links : Nat} (hplain : ∀ name ∈ names, Path.IsPlain name ∧ name ≠ "..")
    (hfree : t.LinkFree names) : follow t followLast links [] names = .ok names ∨
      ∃ e, e ≠ .tooManyLinks ∧ follow t followLast links [] names = .error e := by
  unfold follow
  cases hd : descend t followLast [] names with
  | error e =>
    refine .inr ⟨e, ?_, rfl⟩
    rcases descend_error hd with rfl | rfl | rfl <;> decide
  | ok stop =>
    rw [(Descends.of_descend hd).linkFree hplain hfree]
    exact .inl rfl

/-- The text of a path from the root leads along its names. -/
theorem Disk.follow_text (hproper : Path.Proper ⟨.root, names⟩) :
    follow d.tree followLast maxLinks (rawStart d.cwd (Path.text ⟨.root, names⟩))
      (rawNames (Path.text ⟨.root, names⟩)) = follow d.tree followLast maxLinks [] names := by
  by_cases hne : names = []
  · subst hne
    exact follow_dot rfl
  · rw [rawNames_text hproper hne, rawStart_text hproper hne]
    rfl

/-- **The path of a link-free location leads to it**, if anywhere. -/
theorem Disk.locate_linkFree (hplain : ∀ name ∈ names, Path.IsPlain name ∧ name ≠ "..")
    (hfree : d.tree.LinkFree names)
    (hl : d.locate followLast (Path.text ⟨.root, names⟩) = .ok loc) : loc = names := by
  obtain ⟨-, -, hf⟩ := locate_ok hl
  rw [follow_text fun part hm => (hplain part hm).1] at hf
  rcases follow_linkFree hplain hfree with h | ⟨e, -, h⟩
  · exact Except.ok.inj (hf.symm.trans h)
  · cases hf.symm.trans h

/-- So no link is at a path of a link-free location. -/
theorem linkAt?_linkFree (hplain : ∀ name ∈ names, Path.IsPlain name ∧ name ≠ "..")
    (hfree : d.tree.LinkFree names) : linkAt? d ⟨.root, names⟩ = none := by
  unfold linkAt? Disk.lstat
  cases hf : d.find false (Path.text ⟨.root, names⟩) with
  | error e => rfl
  | ok found =>
    obtain ⟨loc, node⟩ := found
    obtain ⟨hl, hn⟩ := Disk.find_ok hf
    rw [Disk.locate_linkFree hplain hfree hl] at hn
    cases node with
    | link target => exact absurd hn (hfree names target (List.prefix_refl names))
    | _ => rfl

/-- The path of a link-free location leads through no links. -/
theorem Disk.stat_linkFree (hplain : ∀ name ∈ names, Path.IsPlain name ∧ name ≠ "..")
    (hfree : d.tree.LinkFree names) :
    d.stat (Path.text ⟨.root, names⟩) ≠ .error .tooManyLinks := by
  have hlocate : d.locate true (Path.text ⟨.root, names⟩) ≠ .error .tooManyLinks := by
    intro h
    unfold locate at h
    split at h
    · cases h
    split at h
    · cases h
    rw [follow_text fun part hm => (hplain part hm).1] at h
    rcases follow_linkFree hplain hfree with h' | ⟨e, hother, h'⟩
    · cases h.symm.trans h'
    · exact hother (Except.error.inj (h'.symm.trans h))
  intro h
  unfold stat find at h
  cases hl : d.locate true (Path.text ⟨.root, names⟩) with
  | error e =>
    rw [hl] at h
    cases h
    exact hlocate hl
  | ok loc =>
    simp only [hl, bind, Except.bind] at h
    cases hn : d.tree.get? loc with
    | none => rw [hn] at h; cases h
    | some node => rw [hn] at h; cases h

/-- **The path of a link-free location resolves to itself.** -/
theorem Disk.resolve_linkFree (hplain : ∀ name ∈ names, Path.IsPlain name ∧ name ≠ "..")
    (hfault : Disk.pathFault? (Path.text ⟨.root, names⟩) = none) (hfree : d.tree.LinkFree names) :
    d.resolve ⟨.root, names⟩ = .ok ⟨.root, names⟩ := by
  refine resolve_of_no_link hplain hfault (fun front _ hf => ?_) (stat_linkFree hplain hfree)
  exact linkAt?_linkFree (fun name hm => hplain name (hf.subset hm)) (hfree.before hf)

/-! ## 3. Paths whose names have been looked at -/

/-- A path that starts at the root, or some directories above the working directory, and goes down
by names that are no links as far as the system says. -/
inductive Clear (d : Disk) : Path → Prop
  | root : Clear d ⟨.root, []⟩
  | up (k : Nat) : Clear d ⟨.relative, List.replicate k ".."⟩
  | down (p : Path) (name : String) : Clear d p → Path.IsPlain name → name ≠ ".." →
      linkAt? d ⟨p.anchor, p.parts ++ [name]⟩ = none → Clear d ⟨p.anchor, p.parts ++ [name]⟩

theorem isPlain_up : Path.IsPlain ".." := by decide

namespace Clear

theorem proper (h : Clear d p) : p.Proper := by
  induction h with
  | root => exact fun part hm => by cases hm
  | up k => exact fun part hm => by rw [List.eq_of_mem_replicate hm]; exact isPlain_up
  | down p name _ hplain _ _ ih =>
    exact List.forall_mem_append.mpr ⟨ih, List.forall_mem_singleton.mpr hplain⟩

/-- One level up, or one more above the working directory. -/
theorem above (h : Clear d p) : Clear d (above p) := by
  cases h with
  | root => exact .root
  | up k =>
    have hup : Files.above ⟨.relative, List.replicate k ".."⟩ =
        ⟨.relative, List.replicate (k + 1) ".."⟩ := by
      cases k with
      | zero => rfl
      | succ k => simp [Files.above, List.replicate_succ']
    rw [hup]
    exact .up (k + 1)
  | down p name hp hplain hup hlink =>
    have hparent : Files.above ⟨p.anchor, p.parts ++ [name]⟩ = p := by
      cases ha : p.anchor <;> simp [Files.above, Path.parent, hup, ← ha]
    rw [hparent]
    exact hp

end Clear

/-! ## 4. What replacing links keeps -/

/-- What is true of the paths that are reached without a loop, and what of those at which a loop has
ended the replacement. -/
structure Kept (d : Disk) (free looped : Path → Prop) : Prop where
  root : free ⟨.root, []⟩
  above : ∀ {p}, free p → free (above p)
  down : ∀ {p name}, free p → Path.IsPlain name → name ≠ ".." →
    linkAt? d ⟨p.anchor, p.parts ++ [name]⟩ = none → free ⟨p.anchor, p.parts ++ [name]⟩
  met : ∀ {p name rest}, free p → Path.IsPlain name → (∀ n ∈ rest, '/' ∉ n.toList) →
    looped (extended ⟨p.anchor, p.parts ++ [name]⟩ rest)
  left : ∀ {p rest}, looped p → (∀ n ∈ rest, '/' ∉ n.toList) → looped (extended p rest)

/-- The property holds of the paths that links are known to lead to. -/
def Replaced.All (free : Path → Prop) (replaced : Replaced) : Prop :=
  ∀ key known, replaced.lookup key = some (some known) → free known

theorem Replaced.All.cons {free : Path → Prop} {replaced : Replaced} (h : replaced.All free)
    {key : Path} {known? : Option Path} (hk : ∀ known, known? = some known → free known) :
    Replaced.All free ((key, known?) :: replaced) := by
  intro other known hlookup
  rcases Assoc.lookup_cons_some hlookup with ⟨-, hknown⟩ | hlookup
  · exact hk known hknown
  · exact h other known hlookup

/-- The names between the slashes of the target of a link have none. -/
theorem not_slash_of_mem_targetSteps (directory : Path) (target : String) :
    ∀ name ∈ (targetSteps directory target).2, '/' ∉ name.toList := by
  have hnames : ∀ name ∈ Text.splitAt target '/', '/' ∉ name.toList := by
    intro name hm
    obtain ⟨piece, hpiece, rfl⟩ := List.mem_map.mp hm
    rw [String.toList_ofList]
    exact Text.not_mem_of_mem_splitChars hpiece
  unfold targetSteps
  split
  · rename_i second rest hsplit
    rw [hsplit] at hnames
    exact fun name hm => hnames name (List.mem_cons_of_mem _ hm)
  · exact hnames

namespace Kept

variable {free looped : Path → Prop}

/-- The target of a link starts in the link's directory or at the root. -/
theorem target (hk : Kept d free looped) (h : free p) (target : String) :
    free (targetSteps p target).1 := by
  unfold targetSteps
  split
  · exact hk.root
  · exact h

/-- The properties hold of the path that a replacement has reached. -/
structure Reached (free looped : Path → Prop) (progress : Progress) : Prop where
  free : progress.loopFree = true → free progress.path ∧ progress.replaced.All free
  looped : progress.loopFree = false → looped progress.path

theorem Reached.stopped {path : Path} {replaced : Replaced} (h : looped path) :
    Reached free looped ⟨path, false, replaced⟩ :=
  ⟨(fun he => by cases he), fun _ => h⟩

/-- Links in links to a depth are replaced by paths of which the properties hold. -/
def At (d : Disk) (free looped : Path → Prop) (depth : Nat) : Prop :=
  ∀ (replaced : Replaced) (path : Path) (names : List String),
    replaced.All free → free path → (∀ name ∈ names, '/' ∉ name.toList) →
      Reached free looped (replaceLinks d depth replaced path names)

/-- Replacing a link needs the links in its target only, which are less deep, and then the names
after it. -/
theorem of_link (hk : Kept d free looped) {depth : Nat}
    (hinner : ∀ inner, depth = inner + 1 → At d free looped inner) {name : String}
    {rest : List String} {replaced : Replaced} {path : Path} {target : String}
    (hafter : ∀ (replaced : Replaced) (path : Path), replaced.All free → free path →
      Reached free looped (replaceLinks d depth replaced path rest))
    (hr : replaced.All free) (hp : free path) (hplain : Path.IsPlain name)
    (hrest : ∀ n ∈ rest, '/' ∉ n.toList) (hup : name ≠ "..")
    (hlink : linkAt? d ⟨path.anchor, path.parts ++ [name]⟩ = some target) :
    Reached free looped (replaceLinks d depth replaced path (name :: rest)) := by
  have hdot : ¬ (name = "" || name = ".") = true := by simp [hplain.1, hplain.2.1]
  have hmet := hk.met hp hplain hrest
  rw [replaceLinks, if_neg hdot, if_neg hup, extended_plain path hplain]
  simp only [hlink]
  rcases hknown : replaced.lookup ⟨path.anchor, path.parts ++ [name]⟩ with _ | _ | known <;>
    simp only [hknown]
  · cases depth with
    | zero => exact .stopped hmet
    | succ inner =>
      have htarget := hinner inner rfl
        ((⟨path.anchor, path.parts ++ [name]⟩, none) :: replaced)
        (targetSteps path target).1 (targetSteps path target).2
        (hr.cons fun _ he => by cases he) (hk.target hp target)
        (not_slash_of_mem_targetSteps path target)
      simp only
      split
      · rename_i hfree
        obtain ⟨hpath, htable⟩ := htarget.free hfree
        exact hafter _ _ (htable.cons fun _ he => by cases he; exact hpath) hpath
      · rename_i hloop
        exact .stopped (hk.left (htarget.looped (Bool.eq_false_iff.mpr hloop)) hrest)
  · exact .stopped hmet
  · exact hafter replaced known hr (hr _ known hknown)

/-- Links are replaced to a depth where those in their targets are.  The induction is on the names
that are still to be taken. -/
theorem of_inner (hk : Kept d free looped) {depth : Nat}
    (hinner : ∀ inner, depth = inner + 1 → At d free looped inner) : At d free looped depth := by
  intro replaced path names
  induction names generalizing replaced path with
  | nil =>
    intro hr hp _
    rw [replaceLinks]
    exact ⟨fun _ => ⟨hp, hr⟩, fun h => by cases h⟩
  | cons name rest ih =>
    intro hr hp hn
    have hrest : ∀ n ∈ rest, '/' ∉ n.toList := fun n hm => hn n (List.mem_cons_of_mem _ hm)
    by_cases hdot : (name = "" || name = ".") = true
    · rw [replaceLinks, if_pos hdot]
      exact ih replaced path hr hp hrest
    by_cases hup : name = ".."
    · rw [replaceLinks, if_neg hdot, if_pos hup]
      exact ih replaced (Files.above path) hr (hk.above hp) hrest
    have hplain : Path.IsPlain name := by
      simp only [Bool.or_eq_true, decide_eq_true_eq, not_or] at hdot
      exact ⟨hdot.1, hdot.2, hn name List.mem_cons_self⟩
    cases hlink : linkAt? d ⟨path.anchor, path.parts ++ [name]⟩ with
    | none =>
      rw [replaceLinks, if_neg hdot, if_neg hup, extended_plain path hplain]
      simp only [hlink]
      exact ih replaced _ hr (hk.down hp hplain hup hlink) hrest
    | some target =>
      exact hk.of_link hinner (fun replaced path hr hp => ih replaced path hr hp hrest) hr hp
        hplain hrest hup hlink

/-- **Replacing links keeps the properties**, to any depth. -/
theorem all (hk : Kept d free looped) : ∀ depth : Nat, At d free looped depth
  | 0 => hk.of_inner fun _ he => by cases he
  | depth + 1 => hk.of_inner fun _ he => by
    cases he
    exact hk.all depth

end Kept

/-- Without a loop, links are replaced by clear paths. -/
theorem kept_clear (d : Disk) : Kept d (Clear d) fun _ => True where
  root := .root
  above := Clear.above
  down := fun hp hplain hup hlink => .down _ _ hp hplain hup hlink
  met := fun _ _ _ => trivial
  left := fun _ _ => trivial

theorem named_concat (hp : p.Named) (hn : name ≠ "" ∧ '/' ∉ name.toList) :
    Path.Named ⟨p.anchor, p.parts ++ [name]⟩ :=
  List.forall_mem_append.mpr ⟨hp, List.forall_mem_singleton.mpr hn⟩

theorem named_extended (hp : p.Named) {rest : List String}
    (hrest : ∀ n ∈ rest, '/' ∉ n.toList) : (extended p rest).Named := by
  have hadded : ∀ n ∈ rest.filter (· != ""), n ≠ "" ∧ '/' ∉ n.toList := by
    intro n hm
    obtain ⟨hmem, hne⟩ := List.mem_filter.mp hm
    exact ⟨bne_iff_ne.mp hne, hrest n hmem⟩
  unfold extended
  split
  · exact hadded
  · exact List.forall_mem_append.mpr ⟨hp, hadded⟩

/-- With a loop or without, links are replaced by names. -/
theorem kept_named (d : Disk) : Kept d Path.Named Path.Named where
  root := fun part hm => by cases hm
  above := by
    intro p hp
    unfold Files.above
    split
    · exact List.forall_mem_singleton.mpr (by decide)
    · exact named_concat hp (by decide)
    · exact fun part hm => hp part ((List.dropLast_sublist _).mem hm)
  down := fun hp hplain _ _ => named_concat hp ⟨hplain.1, hplain.2.2⟩
  met := fun hp hplain hrest => named_extended (named_concat hp ⟨hplain.1, hplain.2.2⟩) hrest
  left := fun hp hrest => named_extended hp hrest

/-! ## 5. The location of a clear path -/

namespace Disk

theorem locationOf_down (d : Disk) (p : Path) (hn : Path.IsPlain name ∧ name ≠ "..") :
    d.locationOf ⟨p.anchor, p.parts ++ [name]⟩ = d.locationOf p ++ [name] := by
  unfold locationOf Path.isAbsolute
  split
  · exact Path.collapse_concat hn
  · rw [← List.append_assoc]
    exact Path.collapse_concat hn

/-- A path of dots has the location so many levels up. -/
theorem locationOf_up (hplain : ∀ name ∈ d.cwd, Path.IsPlain name ∧ name ≠ "..") : ∀ k : Nat,
    d.locationOf ⟨.relative, List.replicate k ".."⟩ = d.cwd.take (d.cwd.length - k)
  | 0 => by
    show Path.collapse (d.cwd ++ []) = _
    rw [List.append_nil, collapse_plain hplain, Nat.sub_zero, List.take_length]
  | k + 1 => by
    have ih : Path.collapse (d.cwd ++ List.replicate k "..") = d.cwd.take (d.cwd.length - k) :=
      locationOf_up hplain k
    show Path.collapse (d.cwd ++ List.replicate (k + 1) "..") = _
    rw [List.replicate_succ', ← List.append_assoc, Path.collapse_up, ih, List.dropLast_eq_take,
      List.take_take, List.length_take]
    congr 1
    omega

end Disk

/-- Dots lead up from a directory. -/
theorem descend_up_all (hw : t.WellFormed) : ∀ (k : Nat) {loc : Location},
    (t.get? loc).any Node.isDirectory = true →
      descend t followLast loc (List.replicate k "..") = .ok (.done (loc.take (loc.length - k)))
  | 0, loc, _ => by
    rw [Nat.sub_zero, List.take_length]
    rfl
  | k + 1, loc, hdir => by
    have habove : (t.get? loc.dropLast).any Node.isDirectory = true :=
      hw.directory_prefix (List.dropLast_prefix loc) hdir
    rw [List.replicate_succ, descend_up hdir, descend_up_all hw k habove, List.dropLast_eq_take,
      List.take_take, List.length_take]
    congr 3
    omega

/-- A relative path of steps up leads up from the working directory. -/
theorem Disk.locate_up (hw : d.tree.WellFormed)
    (hcwd : (d.tree.get? d.cwd).any Node.isDirectory = true) (k : Nat)
    (hshort : (Path.text ⟨.relative, List.replicate k ".."⟩).utf8ByteSize < maxPathBytes) :
    d.locate true (Path.text ⟨.relative, List.replicate k ".."⟩) =
      .ok (d.cwd.take (d.cwd.length - k)) := by
  have hproper : Path.Proper ⟨.relative, List.replicate k ".."⟩ := (Clear.up (d := d) k).proper
  refine Disk.locate_of_follow (Disk.text_ne_empty hproper) hshort ?_
  cases k with
  | zero =>
    rw [Disk.rawNames_top rfl, Disk.rawStart_top rfl, Nat.sub_zero, List.take_length]
    exact follow_dot hcwd
  | succ k =>
    rw [rawNames_text hproper (by simp), rawStart_text hproper (by simp)]
    exact (Follows.done (.of_descend (descend_up_all hw (k + 1) hcwd))).follow

/-- A name in the directory of a path is found there, if a walk from the root has passed it. -/
theorem Disk.locate_passed {base : Location} {more : List String} {stop : Stop}
    (hw : d.tree.WellFormed) (hp : p.Proper) (hname : Path.IsPlain name)
    (hup : name ≠ "..") (hshort : (p.child name).text.utf8ByteSize < maxPathBytes)
    (hbase : d.locate true p.text = .ok base)
    (hdir : (d.tree.get? base).any Node.isDirectory = true)
    (hwalk : descend d.tree true [] (base ++ name :: more) = .ok stop) (follows : Bool)
    (hno : follows = true → ∀ target, d.tree.get? (base ++ [name]) ≠ some (.link target)) :
    d.locate follows (p.child name).text = .ok (base ++ [name]) := by
  have hlook := looksUp_of_descend (descend_along hw base [] hdir hwalk) hname.2.1 hup
  rw [Disk.locate_in hp hname hup hbase hdir hno, if_neg]
  rintro (hlong | hlong)
  · exact Nat.not_lt.mpr hlong hshort
  · exact hlook.fits hlong

/-- **A clear path leads to its location, and that is link-free**, if the path is not too long and
the names of the location can be walked along. -/
theorem Clear.leads (hw : d.tree.WellFormed)
    (hcwd : (d.tree.get? d.cwd).any Node.isDirectory = true) (h : Clear d p)
    (hshort : p.text.utf8ByteSize < maxPathBytes) {more : List String} {stop : Stop}
    (hwalk : descend d.tree true [] (d.locationOf p ++ more) = .ok stop) :
    d.tree.LinkFree (d.locationOf p) ∧
      ((d.tree.get? (d.locationOf p)).any Node.isDirectory = true →
        d.locate true p.text = .ok (d.locationOf p)) := by
  induction h generalizing more stop with
  | root =>
    refine ⟨hw.linkFree rfl, fun _ => ?_⟩
    refine Disk.locate_of_follow (by decide) hshort ?_
    exact follow_dot rfl
  | up k =>
    rw [Disk.locationOf_up (hw.plain_before hcwd) k]
    refine ⟨hw.linkFree ?_, fun _ => Disk.locate_up hw hcwd k hshort⟩
    exact hw.directory_prefix (List.take_prefix _ d.cwd) hcwd
  | down p name hp hname hup hlink ih =>
    have hchild : p.child name = ⟨p.anchor, p.parts ++ [name]⟩ := Path.child_plain p hname
    have hdown := Disk.locationOf_down d p ⟨hname, hup⟩
    rw [hdown, ← List.append_cons] at hwalk
    rw [hdown]
    rw [← hchild] at hshort hlink ⊢
    obtain ⟨hfree, hleads⟩ :=
      ih (Nat.lt_of_le_of_lt (Disk.utf8ByteSize_child p hname) hshort) hwalk
    -- in a directory the name can be looked at, as the walk has passed it
    have hlocate (hdir : (d.tree.get? (d.locationOf p)).any Node.isDirectory = true) :=
      Disk.locate_passed hw hp.proper hname hup hshort (hleads hdir) hdir hwalk
    have hno : ∀ target, d.tree.get? (d.locationOf p ++ [name]) ≠ some (.link target) := by
      intro target htarget
      have hdir := hw.grounded _ name (by rw [htarget]; rfl)
      have hfind := Disk.find_of_locate (hlocate hdir false fun he => by cases he) htarget
      simp [linkAt?, Disk.lstat, hfind, Except.map] at hlink
    refine ⟨hfree.concat hno, fun hdir => hlocate ?_ true fun _ => hno⟩
    exact hw.directory_prefix (List.prefix_append _ [name]) hdir

/-- A clear path from the root is the path of its location. -/
theorem Clear.eq_of_absolute (h : Clear d p) (ha : p.isAbsolute = true) :
    p = ⟨.root, d.locationOf p⟩ := by
  induction h with
  | root => rfl
  | up k => cases ha
  | down p name hp hname hup hlink ih =>
    have hroot := ih ha
    have hanchor : p.anchor = .root := congrArg Path.anchor hroot
    have hparts : p.parts = d.locationOf p := congrArg Path.parts hroot
    rw [Disk.locationOf_down d p ⟨hname, hup⟩, hanchor, hparts]

/-! ## 6. Resolved paths -/

namespace Disk

/-- The replacement of all the links of a path. -/
def replacement (d : Disk) (path : Path) : Progress :=
  replaceLinks d maxReplacements [] (if path.isAbsolute then ⟨.root, []⟩ else ⟨.relative, []⟩)
    path.parts

/-- Replacing the links of the path meets no loop, and where it leaves a relative path, one that is
not too long to be asked about. -/
structure Untangled (d : Disk) (path : Path) : Prop where
  loopFree : (d.replacement path).loopFree = true
  short : (d.replacement path).path.isAbsolute = false →
    (d.replacement path).path.text.utf8ByteSize < maxPathBytes

theorem realLocation_eq (d : Disk) (path : Path) :
    d.realLocation path = d.locationOf (d.replacement path).path := rfl

/-- The names of a resolved path are plain, and none leads up. -/
theorem resolve_plain (hcwd : ∀ name ∈ d.cwd, Path.IsPlain name ∧ name ≠ "..") {path real : Path}
    (hp : path.Proper) (hr : d.resolve path = .ok real) :
    ∀ name ∈ real.parts, Path.IsPlain name ∧ name ≠ ".." := by
  have hstart : Path.Named (if path.isAbsolute then ⟨.root, []⟩ else ⟨.relative, []⟩) := by
    split <;> exact fun part hm => by cases hm
  have hreached := (kept_named d).all maxReplacements [] _ path.parts (fun _ _ hl => by cases hl)
    hstart fun name hm => (hp name hm).2.2
  have hnamed : (d.replacement path).path.Named := by
    cases hloop : (d.replacement path).loopFree with
    | true => exact (hreached.free hloop).1
    | false => exact hreached.looped hloop
  obtain ⟨-, rfl, -⟩ := resolve_ok_iff.mp hr
  intro name hm
  rw [realLocation_eq] at hm
  obtain ⟨hpart, hdot, hup⟩ := Path.mem_collapse hm
  have hname : name ≠ "" ∧ '/' ∉ name.toList := by
    split at hpart
    · exact hnamed name hpart
    · rcases List.mem_append.mp hpart with hmem | hmem
      · exact ⟨(hcwd name hmem).1.1, (hcwd name hmem).1.2.2⟩
      · exact hnamed name hmem
  exact ⟨⟨hname.1, hdot, hname.2⟩, hup⟩

/-- The replacement of the links of a path is clear, where no loop is met. -/
theorem Untangled.clear {path : Path} (hp : path.Proper) (h : d.Untangled path) :
    Clear d (d.replacement path).path := by
  have hstart : Clear d (if path.isAbsolute then ⟨.root, []⟩ else ⟨.relative, []⟩) := by
    split
    · exact .root
    · exact .up 0
  exact (((kept_clear d).all maxReplacements [] _ path.parts (fun _ _ hl => by cases hl) hstart
    fun name hm => (hp name hm).2.2).free h.loopFree).1

/-- The names of a path that leads somewhere can be walked along. -/
theorem descend_of_stat {node : Node} (hproper : Path.Proper ⟨.root, names⟩)
    (hstat : d.stat (Path.text ⟨.root, names⟩) = .ok node) :
    (Path.text ⟨.root, names⟩).utf8ByteSize < maxPathBytes ∧
      ∃ loc stop, d.locate true (Path.text ⟨.root, names⟩) = .ok loc ∧
        d.tree.get? loc = some node ∧ descend d.tree true [] names = .ok stop := by
  obtain ⟨loc, hl, hn⟩ := stat_ok hstat
  obtain ⟨-, hshort, hfollow⟩ := locate_ok hl
  rw [follow_text hproper] at hfollow
  unfold follow at hfollow
  cases hd : descend d.tree true [] names with
  | error e => rw [hd] at hfollow; cases hfollow
  | ok stop => exact ⟨hshort, loc, stop, hl, hn, rfl⟩

/-- **A path resolves to a link-free location**, if something is there and the path is not
tangled. -/
theorem linkFree_of_untangled (hw : d.tree.WellFormed)
    (hcwd : (d.tree.get? d.cwd).any Node.isDirectory = true) {path real : Path} {node : Node}
    (hp : path.Proper) (h : d.Untangled path) (hr : d.resolve path = .ok real)
    (hstat : d.stat real.text = .ok node) : d.tree.LinkFree real.parts := by
  have hclear := h.clear hp
  have hplain := resolve_plain (hw.plain_before hcwd) hp hr
  obtain ⟨-, rfl, -⟩ := resolve_ok_iff.mp hr
  rw [realLocation_eq] at hplain hstat ⊢
  obtain ⟨hshort, loc, stop, -, -, hwalk⟩ :=
    descend_of_stat (fun part hm => (hplain part hm).1) hstat
  have hfits : (d.replacement path).path.text.utf8ByteSize < maxPathBytes := by
    cases ha : (d.replacement path).path.isAbsolute with
    | false => exact h.short ha
    | true =>
      rw [hclear.eq_of_absolute ha]
      exact hshort
  have hon : descend d.tree true [] (d.locationOf (d.replacement path).path ++ []) = .ok stop := by
    rw [List.append_nil]
    exact hwalk
  exact (hclear.leads hw hcwd hfits hon).1

/-- What is at a link-free path is at its own location. -/
theorem get?_of_stat (hplain : ∀ name ∈ names, Path.IsPlain name ∧ name ≠ "..")
    (hfree : d.tree.LinkFree names) {node : Node}
    (hstat : d.stat (Path.text ⟨.root, names⟩) = .ok node) : d.tree.get? names = some node := by
  obtain ⟨-, loc, -, hl, hn, -⟩ := descend_of_stat (fun part hm => (hplain part hm).1) hstat
  rw [locate_linkFree hplain hfree hl] at hn
  exact hn

end Disk

end Files

end Dissect
