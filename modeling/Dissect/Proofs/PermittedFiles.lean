/-
# The class files that may be used

A path is accepted exactly if the file it resolves to is permitted (`sanitize_ok_iff`).  Unless the
replacement of its links meets a loop, what is accepted is also where the file is: no link is left
on the way, so the file itself lies in one of the allowed directories, and accepting its path again
gives the same path (`sanitize_accepts_permitted`).
-/
import Dissect.Access
import Dissect.Proofs.FollowedPaths

namespace Dissect.Access

open Files (Disk Tree Node)

/-- The path is that of a regular file of acceptable size in or below one of the allowed
directories; an empty list allows all. -/
structure Permitted (disk : Disk) (allowed : List Path) (maxSize : Int) (path : Path) : Prop where
  named : Disk.pathFault? path.text = none
  file : ∃ content mode, disk.stat path.text = .ok (.file content mode) ∧ content.size ≤ maxSize
  within : allowed = [] ∨
    ∃ directory ∈ allowed, ∃ real, disk.resolve directory = .ok real ∧ path.isWithin real = true

variable {disk : Disk} {allowed : List Path} {maxSize : Int} {classPath : String} {path : Path}

theorem isAllowed_iff : isAllowed disk path allowed = true ↔ allowed = [] ∨
    ∃ directory ∈ allowed, ∃ real, disk.resolve directory = .ok real ∧
      path.isWithin real = true := by
  have hwithin : ∀ directory, liesWithin disk path directory = true ↔
      ∃ real, disk.resolve directory = .ok real ∧ path.isWithin real = true := by
    intro directory
    unfold liesWithin
    cases disk.resolve directory <;> simp
  simp only [isAllowed, Bool.or_eq_true, List.isEmpty_iff, List.any_eq_true, hwithin]

theorem fileSize_of_stat {content : Files.Content} {mode : Nat}
    (h : disk.stat path.text = .ok (.file content mode)) :
    fileSize disk path = .ok content.size := by
  rw [fileSize, h]

/-- **A path is accepted exactly if what it resolves to is permitted.** -/
theorem sanitize_ok_iff : sanitize disk classPath allowed maxSize = .ok path ↔
    disk.resolve (Path.ofText classPath) = .ok path ∧ Permitted disk allowed maxSize path := by
  unfold sanitize
  cases hr : disk.resolve (Path.ofText classPath) with
  | error fault =>
    rw [show (Except.error fault : Except Fault Path).mapError unresolved =
      .error (unresolved fault) from rfl]
    simp [bind, Except.bind]
  | ok real =>
    have hsame : Except.ok real = (Except.ok path : Except Fault Path) ↔ real = path := by simp
    rw [hsame, show (Except.ok real : Except Fault Path).mapError unresolved = .ok real from rfl]
    simp only [bind, Except.bind]
    constructor
    · intro h
      cases hexists : disk.exists? real with
      | error fault => simp [hexists] at h
      | ok there =>
        cases hfile : disk.isFile real with
        | error fault => cases there <;> simp [hexists, hfile] at h
        | ok isFile =>
          cases hallowed : isAllowed disk real allowed with
          | false => cases there <;> cases isFile <;> simp [hexists, hfile, hallowed] at h
          | true =>
            obtain rfl : there = true := by cases there <;> simp [hexists] at h ⊢
            obtain rfl : isFile = true := by cases isFile <;> simp [hexists, hfile] at h ⊢
            obtain ⟨hnamed, content, mode, hstat⟩ := Disk.isFile_true_iff.mp hfile
            simp only [hexists, hfile, hallowed, fileSize_of_stat hstat] at h
            by_cases hsize : maxSize < content.size
            · simp [hsize] at h
            · simp only [hsize, if_false] at h
              cases h
              exact ⟨rfl, hnamed, ⟨content, mode, hstat, Int.not_lt.mp hsize⟩,
                isAllowed_iff.mp hallowed⟩
    · rintro ⟨rfl, hpermitted⟩
      obtain ⟨content, mode, hstat, hsize⟩ := hpermitted.file
      have hfile : disk.isFile real = .ok true :=
        Disk.isFile_true_iff.mpr ⟨hpermitted.named, content, mode, hstat⟩
      have hexists := Disk.exists_of_check hfile
      have hallowed := isAllowed_iff.mpr hpermitted.within
      simp only [hexists, hfile, hallowed, fileSize_of_stat hstat]
      simp [hsize, pure, Except.pure]

/-- A path that is accepted again, as it is, is read back from its text. -/
theorem ofText_text_of_sanitize (hplain : ∀ name ∈ path.parts, Path.IsPlain name ∧ name ≠ "..")
    (hroot : path.anchor = .root) (h : sanitize disk classPath allowed maxSize = .ok path) :
    Path.ofText path.text = path := by
  refine Path.ofText_text (fun part hm => (hplain part hm).1) fun hnil => ?_
  -- the root is no file
  obtain ⟨content, mode, hstat, -⟩ := (sanitize_ok_iff.mp h).2.file
  obtain ⟨anchor, names⟩ := path
  obtain rfl : anchor = .root := hroot
  obtain rfl : names = [] := hnil
  have hfree : disk.tree.LinkFree [] := (Files.Standing.root disk).free
  have hnode := Disk.get?_of_stat (fun _ hm => by cases hm) hfree hstat
  cases hnode

/-- A link-free path that is accepted is accepted again, as it is. -/
theorem sanitize_again (hplain : ∀ name ∈ path.parts, Path.IsPlain name ∧ name ≠ "..")
    (hroot : path.anchor = .root) (hfree : disk.tree.LinkFree path.parts)
    (h : sanitize disk classPath allowed maxSize = .ok path) :
    sanitize disk path.text allowed maxSize = .ok path := by
  obtain ⟨-, hpermitted⟩ := sanitize_ok_iff.mp h
  refine sanitize_ok_iff.mpr ⟨?_, hpermitted⟩
  rw [ofText_text_of_sanitize hplain hroot h]
  obtain ⟨anchor, names⟩ := path
  obtain rfl : anchor = .root := hroot
  exact Disk.resolve_linkFree hplain hpermitted.named hfree

/-- A path that is accepted again, as it is, is link-free: the system can follow it, so it resolves
to where it leads. -/
theorem linkFree_of_again (hw : disk.tree.WellFormed) (hlinks : disk.LinksFit)
    (hplain : ∀ name ∈ path.parts, Path.IsPlain name ∧ name ≠ "..") (hroot : path.anchor = .root)
    (h : sanitize disk path.text allowed maxSize = .ok path) : disk.tree.LinkFree path.parts := by
  obtain ⟨hresolve, hpermitted⟩ := sanitize_ok_iff.mp h
  rw [ofText_text_of_sanitize hplain hroot h] at hresolve
  obtain ⟨content, mode, hstat, -⟩ := hpermitted.file
  obtain ⟨anchor, names⟩ := path
  obtain rfl : anchor = .root := hroot
  have hproper : Path.Proper ⟨.root, names⟩ := fun part hm => (hplain part hm).1
  obtain ⟨-, loc, -, hlocate, -, -⟩ := Disk.descend_of_stat hproper hstat
  obtain ⟨-, hfree, hreal⟩ :=
    Disk.resolve_of_locate hw hlinks hproper rfl hpermitted.named hlocate
  rw [hreal] at hresolve
  rw [← congrArg Path.parts (Except.ok.inj hresolve)]
  exact hfree

/-- **The permitted files are accepted, and a link-free path is where its file is.**  On a proper
disk, for any path that a caller names, any allowed directories and any greatest size, a path is
accepted exactly if the one named resolves to it and it is permitted; it is absolute then.

If no link is left on the way of an accepted path, the file itself is there and is of acceptable
size, it lies in or below an allowed directory as that is without links, and naming the path again
brings out the same; and only then.  No link is left where the replacement of the links of the named
path meets no loop, and where the system can follow the named path from the root, in which case the
accepted path is the place that it leads to.

Paths whose links hold links near 1000 times over fail when they are resolved, which is not told here
(`Files.maxReplacements`). -/
theorem sanitize_accepts_permitted (disk : Disk) (hw : disk.tree.WellFormed)
    (hcwd : (disk.tree.get? disk.cwd).any Node.isDirectory = true) (classPath : String)
    (allowed : List Path) (maxSize : Int) (path : Path) :
    let named := Path.ofText classPath
    (sanitize disk classPath allowed maxSize = .ok path ↔
      disk.resolve named = .ok path ∧ Permitted disk allowed maxSize path) ∧
    (sanitize disk classPath allowed maxSize = .ok path →
      path.anchor = .root ∧
      (disk.tree.LinkFree path.parts →
        (∃ content mode, disk.tree.get? path.parts = some (.file content mode) ∧
          content.size ≤ maxSize) ∧
        (allowed ≠ [] → ∃ directory ∈ allowed, ∃ real, disk.resolve directory = .ok real ∧
          disk.tree.LinkFree real.parts ∧ real.parts <+: path.parts) ∧
        sanitize disk path.text allowed maxSize = .ok path) ∧
      (disk.LinksFit → sanitize disk path.text allowed maxSize = .ok path →
        disk.tree.LinkFree path.parts) ∧
      (disk.Untangled named → disk.tree.LinkFree path.parts) ∧
      (disk.LinksFit → named.isAbsolute = true →
        ∀ loc, disk.locate true named.text = .ok loc →
          path.parts = loc ∧ disk.tree.LinkFree path.parts)) := by
  intro named
  refine ⟨sanitize_ok_iff, fun h => ?_⟩
  obtain ⟨hresolve, hpermitted⟩ := sanitize_ok_iff.mp h
  obtain ⟨content, mode, hstat, hsize⟩ := hpermitted.file
  have hnamed : named.Proper := Path.ofText_proper classPath
  have hplain := Disk.resolve_plain (hw.plain_before hcwd) hnamed hresolve
  obtain ⟨hfault, hreal, -⟩ := Disk.resolve_ok_iff.mp hresolve
  have hroot : path.anchor = .root := by rw [hreal]
  refine ⟨hroot, fun hfree => ⟨⟨content, mode, ?_, hsize⟩, fun hsome => ?_,
    sanitize_again hplain hroot hfree h⟩, fun hlinks => linkFree_of_again hw hlinks hplain hroot,
    fun huntangled => Disk.linkFree_of_untangled hw hcwd hnamed huntangled hresolve hstat,
    fun hlinks habsolute loc hlocate => ?_⟩
  · obtain ⟨anchor, names⟩ := path
    obtain rfl : anchor = .root := hroot
    exact Disk.get?_of_stat hplain hfree hstat
  · rcases hpermitted.within with hnone | ⟨directory, hmem, real, hreal, hwithin⟩
    · exact absurd hnone hsome
    · have hprefix := (Path.isWithin_iff.mp hwithin).2
      exact ⟨directory, hmem, real, hreal, hfree.before hprefix, hprefix⟩
  · obtain ⟨-, hfree, hleads⟩ :=
      Disk.resolve_of_locate hw hlinks hnamed habsolute hfault hlocate
    rw [hresolve] at hleads
    obtain rfl := Except.ok.inj hleads
    exact ⟨rfl, hfree⟩

/-- A class file named from a working directory beside the allowed one, through a link and up again;
another allowed directory is missing. -/
theorem sanitize_accepts_through_link :
    let disk : Disk := {
      tree := ⟨[(["work"], .directory 0o755), (["work", "link"], .link "../lib//sub/."),
        (["lib"], .directory 0o755), (["lib", "sub"], .directory 0o755),
        (["lib", "A.class"], .file (.bytes [0xca, 0xfe]) 0o644)]⟩
      cwd := ["work"] }
    let allowed : List Path := [⟨.root, ["gone"]⟩, ⟨.root, ["lib"]⟩]
    sanitize disk "./link//../A.class" allowed 2 = .ok ⟨.root, ["lib", "A.class"]⟩ ∧
      sanitize disk "/lib/A.class" allowed 2 = .ok ⟨.root, ["lib", "A.class"]⟩ := by
  intro disk allowed
  have htree : disk.tree.WellFormed := Tree.WellFormed.of_nodes (by decide +kernel)
  have hread : Path.ofText "./link//../A.class" = ⟨.relative, ["link", "..", "A.class"]⟩ := by
    decide +kernel
  have hreplacement : disk.replacement ⟨.relative, ["link", "..", "A.class"]⟩ =
      ⟨⟨.relative, ["..", "lib", "A.class"]⟩, true,
        [(⟨.relative, ["link"]⟩, some ⟨.relative, ["..", "lib", "sub"]⟩),
          (⟨.relative, ["link"]⟩, none)]⟩ := by
    have hlink : Files.linkAt? disk ⟨.relative, ["link"]⟩ = some "../lib//sub/." := by
      decide +kernel
    have hlib : Files.linkAt? disk ⟨.relative, ["..", "lib"]⟩ = none := by decide +kernel
    have hsub : Files.linkAt? disk ⟨.relative, ["..", "lib", "sub"]⟩ = none := by decide +kernel
    have hclass : Files.linkAt? disk ⟨.relative, ["..", "lib", "A.class"]⟩ = none := by
      decide +kernel
    have hsteps : Files.targetSteps ⟨.relative, []⟩ "../lib//sub/." =
        (⟨.relative, []⟩, ["..", "lib", "", "sub", "."]) := by decide +kernel
    simp [Disk.replacement, Files.maxReplacements, Files.maxPathBytes, Files.replaceLinks,
      Path.isAbsolute, Files.extended, Files.above, Path.parent, hlink, hlib, hsub, hclass, hsteps]
  have huntangled : disk.Untangled (Path.ofText "./link//../A.class") := by
    rw [hread]
    exact ⟨by rw [hreplacement], fun _ => by rw [hreplacement]; decide +kernel⟩
  have hresolve : disk.resolve (Path.ofText "./link//../A.class") =
      .ok ⟨.root, ["lib", "A.class"]⟩ := by
    have hreal : disk.realLocation ⟨.relative, ["link", "..", "A.class"]⟩ = ["lib", "A.class"] := by
      show disk.locationOf (disk.replacement _).path = _
      rw [hreplacement]
      decide +kernel
    rw [hread]
    unfold Disk.resolve
    rw [hreal]
    exact Run.ok_of_toOption (by decide +kernel)
  have hlib : disk.resolve ⟨.root, ["lib"]⟩ = .ok ⟨.root, ["lib"]⟩ :=
    Disk.resolve_name ⟨by decide, by decide⟩ (by decide +kernel) (by decide +kernel)
      (by decide +kernel)
  have hpermitted : Permitted disk allowed 2 ⟨.root, ["lib", "A.class"]⟩ :=
    ⟨by decide +kernel, ⟨.bytes [0xca, 0xfe], 0o644, by rfl, by decide⟩,
      .inr ⟨⟨.root, ["lib"]⟩, by simp [allowed], _, hlib, by decide⟩⟩
  have h := sanitize_accepts_permitted disk htree (by decide +kernel) "./link//../A.class" allowed 2
    ⟨.root, ["lib", "A.class"]⟩
  have hfirst := h.1.mpr ⟨hresolve, hpermitted⟩
  obtain ⟨-, hgood, -, hfree, -⟩ := h.2 hfirst
  exact ⟨hfirst, (hgood (hfree huntangled)).2.2⟩

end Dissect.Access
