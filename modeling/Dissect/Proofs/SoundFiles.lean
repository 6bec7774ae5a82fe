/-
# Sound disposable files

What is true of a disposable file as long as it is on record (`Held.Sound`), and how the host may
change so that it stays true (`Evolves`).  A file bears a name that nothing bore before, and the
places of such names age: where a directory was and is gone nothing appears again.  So the path of a
file leads to its place or nowhere, whatever happens to the other files on its way.

Deleting the file (`delete_sound`), what others do to it (`Harmless`) and making another one
(`evolves_withFile`) are such changes.
-/
import Dissect.Proofs.AgeingDisks
import Dissect.Proofs.FileWorlds
import Dissect.Proofs.SupplyNames

namespace Dissect.Lifetimes

open Disposable
open Files (Disk Errno Location Node Tree)

/-! ## 1. Sound files -/

/-- Nothing changes but at touched places, nothing new bears a name that is still to come from the
supply, and the disk ages. -/
structure Evolves (touched : Location → Prop) (host after : Host) : Prop where
  names : host.namesTaken ≤ after.namesTaken
  disk : after.disk.WellFormed
  same : ∀ l, ¬ touched l → after.disk.tree.get? l = host.disk.tree.get? l
  free : ∀ {endings last}, last ≤ supply → NamesFree host.disk.tree endings host.namesTaken last →
    NamesFree after.disk.tree endings after.namesTaken last
  ages : host.disk.tree.Ages (Spent after.namesTaken) after.disk.tree
  rests : Tree.Rests (Spent host.namesTaken) host.disk.tree after.disk.tree

variable {touched : Location → Prop} {host after : Host} {r : Held}

/-- Where the disk stays the same, only names may have been taken. -/
theorem Evolves.of_disk (hd : host.disk.WellFormed) (hdisk : after.disk = host.disk)
    (hn : host.namesTaken ≤ after.namesTaken) : Evolves touched host after where
  names := hn
  disk := by rw [hdisk]; exact hd
  same := fun l _ => by rw [hdisk]
  free := fun _ hfree l hl name hm ending hending k hk => by
    rw [hdisk] at hl
    exact hfree l hl name hm ending hending k (Nat.le_trans hn hk)
  ages := by rw [hdisk]; exact .refl _ _
  rests := fun l _ hnone => by rw [hdisk]; exact hnone

namespace Held

/-- The path of the file leads nowhere. -/
def Nowhere (r : Held) (d : Disk) : Prop :=
  d.tree.get? r.place = none ∨ ∀ followLast, d.locate followLast r.path = .error .noEntry

/-- What is true of a file in every world: it bears a name that was taken, its path leads to where it
was made or nowhere, its data are there until it is removed, and after that nothing or a directory;
and a handle that calls it deleted leads nowhere. -/
structure Sound (host : Host) (r : Held) : Prop where
  bears : ∃ directory base suffix k, k < host.namesTaken ∧ '/' ∉ suffix.toList ∧
    Path.Proper directory ∧ r.handle.path = directory.child (named suffix k) ∧
    r.place = base ++ [named suffix k]
  led : host.disk.Led (Spent host.namesTaken) r.path r.place
  file : r.removed = false →
    host.disk.tree.get? r.place = some (.file (.bytes r.data) 0o600)
  rest : r.removed = true → host.disk.tree.get? r.place = none ∨
    ∃ mode, host.disk.tree.get? r.place = some (.directory mode)
  gone : r.handle.deleted = true → r.Nowhere host.disk

namespace Sound

theorem spent (h : r.Sound host) : Spent host.namesTaken r.place := by
  obtain ⟨-, base, suffix, k, hk, -, -, -, hplace⟩ := h.bears
  exact ⟨base, suffix, k, hk, hplace⟩

/-- A path that leads nowhere stays so. -/
theorem nowhere (h : r.Sound host) (hd : host.disk.WellFormed) (hev : Evolves touched host after)
    (hn : r.Nowhere host.disk) : r.Nowhere after.disk := by
  rcases hn with hnone | hlost
  · exact .inl (hev.rests _ h.spent hnone)
  · exact .inr (h.led.lost hev.ages hev.rests (fun _ => Spent.mono hev.names) hd.tree hev.disk.tree
      hlost)

/-- A file is sound after what does not touch its place. -/
theorem evolves (h : r.Sound host) (hd : host.disk.WellFormed) (hev : Evolves touched host after)
    (hplace : ¬ touched r.place) : r.Sound after where
  bears := by
    obtain ⟨directory, base, suffix, k, hk, hrest⟩ := h.bears
    exact ⟨directory, base, suffix, k, Nat.lt_of_lt_of_le hk hev.names, hrest⟩
  led := h.led.ages hev.ages hev.rests fun _ => Spent.mono hev.names
  file := fun hr => by
    rw [hev.same _ hplace]
    exact h.file hr
  rest := fun hr => by
    rw [hev.same _ hplace]
    exact h.rest hr
  gone := fun hdel => h.nowhere hd hev (h.gone hdel)

/-- What the system answers when it is asked to remove what the path leads to: a file is removed, a
directory is refused, and anything else is not there. -/
theorem unlink_cases (h : r.Sound host) (hd : host.disk.WellFormed) :
    (r.removed = false ∧ (∀ followLast, host.disk.locate followLast r.path = .ok r.place) ∧
      host.disk.unlink r.path =
        .ok { host.disk with tree := host.disk.tree.erase r.place }) ∨
    (r.removed = true ∧ (∃ mode, host.disk.tree.get? r.place = some (.directory mode)) ∧
      (∀ followLast, host.disk.locate followLast r.path = .ok r.place) ∧
      host.disk.unlink r.path = .error .isDirectory) ∨
    (r.Nowhere host.disk ∧ host.disk.unlink r.path = .error .noEntry) := by
  rcases h.led.locate hd.tree with hthere | hlost
  · cases hr : r.removed with
    | false =>
      refine .inl ⟨rfl, hthere, ?_⟩
      simp [Disk.unlink, Disk.find_of_locate (hthere false) (h.file hr), bind, Except.bind,
        Node.isDirectory]
    | true =>
      rcases h.rest hr with hnone | ⟨mode, hdir⟩
      · refine .inr (.inr ⟨.inl hnone, ?_⟩)
        simp [Disk.unlink, Disk.find_vacant (hthere false) hnone, bind, Except.bind]
      · refine .inr (.inl ⟨rfl, ⟨mode, hdir⟩, hthere, ?_⟩)
        simp [Disk.unlink, Disk.find_of_locate (hthere false) hdir, bind, Except.bind,
          Node.isDirectory]
  · refine .inr (.inr ⟨.inr hlost, ?_⟩)
    simp [Disk.unlink, Disk.find, hlost false, bind, Except.bind]

end Sound

/-- Where a path leads nowhere nothing is found. -/
theorem Nowhere.find {d : Disk} (hn : r.Nowhere d)
    (hled : (∀ followLast, d.locate followLast r.path = .ok r.place) ∨
      ∀ followLast, d.locate followLast r.path = .error .noEntry) (followLast : Bool) :
    d.find followLast r.path = .error .noEntry := by
  rcases hled with hthere | hlost
  · rcases hn with hnone | hlost
    · exact Disk.find_vacant (hthere followLast) hnone
    · have hno := hlost followLast
      rw [hthere] at hno
      cases hno
  · simp [Disk.find, hlost followLast, bind, Except.bind]

end Held

/-! ## 2. Changes at the place of a file -/

/-- A change at the place of a file, which was there, is one by which the disk ages. -/
theorem evolves_at (hd : host.disk.WellFormed) (hr : r.Sound host) {tree : Tree}
    (hothers : ∀ l, l ≠ r.place → tree.get? l = host.disk.tree.get? l)
    (hthere : (host.disk.tree.get? r.place).isSome = true)
    (hleaf : ∀ name, host.disk.tree.get? (r.place ++ [name]) = none)
    (hafter : tree.get? r.place = none ∨
      (∃ mode, tree.get? r.place = some (.directory mode)) ∧
        ((host.disk.tree.get? r.place).any Node.isDirectory = false)) :
    Evolves (· = r.place) host { host with disk := { host.disk with tree } } := by
  have hchange : Tree.ChangesAt r.place host.disk.tree tree := by
    refine ⟨hothers, fun target hlink => ?_, fun target hlink => ?_⟩
    · cases hrem : r.removed with
      | false =>
        rw [hr.file hrem] at hlink
        cases hlink
      | true =>
        rcases hr.rest hrem with hnone | ⟨mode, hdir⟩
        · rw [hnone] at hlink
          cases hlink
        · rw [hdir] at hlink
          cases hlink
    · rcases hafter with hnone | ⟨⟨mode, hdir⟩, -⟩
      · rw [hnone] at hlink
        cases hlink
      · rw [hdir] at hlink
        cases hlink
  refine ⟨Nat.le_refl _, ⟨?_, hd.cwd⟩, hothers, ?_, hchange.ages ?_, hchange.rests ?_⟩
  · refine hchange.wellFormed hd.tree (fun base name hplace _ => ?_) fun name hbelow => ?_
    · rw [hplace] at hthere
      exact ⟨hd.tree.plain base name hthere, hd.tree.grounded base name hthere⟩
    · rw [hleaf name] at hbelow
      cases hbelow
  · intro endings last _ hfree l hl
    by_cases hplace : l = r.place
    · subst hplace
      exact hfree _ hthere
    · exact hfree l (by rw [← hothers l hplace]; exact hl)
  · intro hdir
    rcases hafter with hnone | ⟨-, hno⟩
    · exact ⟨hnone, hr.spent⟩
    · rw [hdir] at hno
      cases hno
  · intro _ hnone
    rw [hnone] at hthere
    cases hthere

theorem Held.Sound.place_ne_nil (hr : r.Sound host) : r.place ≠ [] := by
  obtain ⟨-, base, suffix, k, -, -, -, -, hplace⟩ := hr.bears
  rw [hplace]
  simp

/-- With a file or an empty directory taken away, the rest of the disk stays. -/
theorem evolves_erase (hd : host.disk.WellFormed) (hr : r.Sound host)
    (hthere : (host.disk.tree.get? r.place).isSome = true)
    (hleaf : ∀ name, host.disk.tree.get? (r.place ++ [name]) = none) :
    Evolves (· = r.place) host
      { host with disk := { host.disk with tree := host.disk.tree.erase r.place } } ∧
      (host.disk.tree.erase r.place).get? r.place = none := by
  have hgone := Tree.get?_erase_self hr.place_ne_nil (t := host.disk.tree)
  refine ⟨evolves_at hd hr (fun l hl => ?_) hthere hleaf (.inl hgone), hgone⟩
  exact Tree.get?_erase_of_ne hr.place_ne_nil (hd.tree.leaf hleaf) hl

/-- Nothing is below a file. -/
theorem Held.Sound.leaf (hr : r.Sound host) (hd : host.disk.WellFormed)
    (hremoved : r.removed = false) (name : String) :
    host.disk.tree.get? (r.place ++ [name]) = none :=
  hd.tree.vacant_below (by rw [hr.file hremoved]; rfl) (List.cons_ne_nil name [])

/-- With a file taken away, the rest of the disk stays. -/
theorem evolves_remove (hd : host.disk.WellFormed) (hr : r.Sound host)
    (hremoved : r.removed = false) :
    Evolves (· = r.place) host
      { host with disk := { host.disk with tree := host.disk.tree.erase r.place } } ∧
      (host.disk.tree.erase r.place).get? r.place = none :=
  evolves_erase hd hr (by rw [hr.file hremoved]; rfl) (hr.leaf hd hremoved)

/-- A file that is taken away is sound as one that was removed. -/
theorem Held.Sound.removal {handle : Disposable} (hr : r.Sound host)
    (hev : Evolves (· = r.place) host after) (hpath : handle.path = r.handle.path)
    (hplace : after.disk.tree.get? r.place = none ∨
      handle.deleted = false ∧ ∃ mode, after.disk.tree.get? r.place = some (.directory mode)) :
    ({ r with handle, removed := true } : Held).Sound after where
  bears := by
    obtain ⟨directory, base, suffix, k, hk, hslash, hproper, hfull, hbase⟩ := hr.bears
    exact ⟨directory, base, suffix, k, Nat.lt_of_lt_of_le hk hev.names, hslash, hproper,
      hpath.trans hfull, hbase⟩
  led := by
    have hled := hr.led.ages hev.ages hev.rests fun _ => Spent.mono hev.names
    unfold Held.path at hled ⊢
    rw [hpath]
    exact hled
  file := fun hremoved => by cases hremoved
  rest := fun _ => hplace.imp_right And.right
  gone := fun hdel => by
    rcases hplace with hnone | ⟨hnot, -⟩
    · exact .inl hnone
    · rw [hdel] at hnot
      cases hnot

/-! ## 3. Deleting -/

/-- A path that leads nowhere is not there. -/
theorem Held.Sound.not_exists (hr : r.Sound host) (hd : host.disk.WellFormed)
    (hn : r.Nowhere host.disk) : host.disk.exists? r.handle.path = .ok false := by
  have hfind : host.disk.find true r.handle.path.text = .error .noEntry :=
    hn.find (hr.led.locate hd.tree) true
  exact Disk.check_of_absent (by rw [Disk.stat, hfind]; rfl)

/-- What deleting a file comes to.  A handle that deleted its file does nothing more; a directory in
its place is left as it is, with one warning; and else nothing is at the path any more, and all other
places are as they were. -/
inductive Deletes (host : Host) (r : Held) : Disposable → Host → Prop where
  | again : r.handle.deleted = true → Deletes host r r.handle host
  | obstructed (mode : Nat) : r.handle.deleted = false →
      host.disk.lstat r.path = .ok (.directory mode) →
        Deletes host r r.handle
          (host.noted .warning (deleteWarning r.handle.path .isDirectory))
  | done (tree : Tree) : r.handle.deleted = false →
      (∀ mode, host.disk.lstat r.path ≠ .ok (.directory mode)) →
        (∀ l, l ≠ r.place → tree.get? l = host.disk.tree.get? l) →
          { host.disk with tree : Disk }.exists? r.handle.path = .ok false →
            Deletes host r { r.handle with deleted := true }
              { host with disk := { host.disk with tree } }

/-- A file that was removed stays the same when it is removed. -/
theorem Held.of_removed (hremoved : r.removed = true) :
    ({ r with removed := true } : Held) = r := by
  rw [← hremoved]

/-- A handle whose path leads nowhere may call its file deleted. -/
theorem Held.Sound.settled (hr : r.Sound host) (hn : r.Nowhere host.disk) :
    ({ r with handle := { r.handle with deleted := true } } : Held).Sound host :=
  { hr with gone := fun _ => hn }

/-- **Deleting a file never fails**, and it does what it says. -/
theorem delete_sound (hr : r.Sound host) (hd : host.disk.WellFormed) :
    ∃ handle after, (Disposable.delete r.handle).exec host = (.ok handle, after) ∧
      Deletes host r handle after ∧ Evolves (· = r.place) host after ∧
      (r.deleted handle host.disk).Sound after := by
  rw [delete_exec]
  unfold Held.deleted Held.unlinked
  cases hdel : r.handle.deleted with
  | true => exact ⟨_, _, rfl, .again hdel, .of_disk hd rfl (Nat.le_refl _), hr⟩
  | false =>
    simp only [Bool.false_eq_true, if_false]
    rcases hr.unlink_cases hd with ⟨hremoved, hthere, hu⟩ | ⟨hremoved, ⟨mode, hdir⟩, hthere, hu⟩ |
      ⟨hnowhere, hu⟩
    · obtain ⟨hev, hgone⟩ := evolves_remove hd hr hremoved
      have hsound : ({ r with handle := { r.handle with deleted := true }, removed := true } :
          Held).Sound _ := hr.removal hev rfl (.inl hgone)
      have hfind := Disk.find_of_locate (hthere false) (hr.file hremoved)
      rw [remove_of_ok hu, hu]
      refine ⟨_, _, rfl, .done _ hdel (fun mode hl => ?_) hev.same ?_, hev, ?_⟩
      · rw [Disk.lstat, hfind] at hl
        cases hl
      · exact hsound.not_exists hev.disk (.inl hgone)
      · rw [hremoved]
        exact hsound
    · have hsame : ({ r.handle with deleted := false } : Disposable) = r.handle := by rw [← hdel]
      have hnoted : Evolves (fun _ => False) host
          (host.noted .warning (deleteWarning r.handle.path .isDirectory)) :=
        .of_disk hd rfl (Nat.le_refl _)
      rw [remove_of_directory hu, hu]
      refine ⟨_, _, rfl, ?_, .of_disk hd rfl (Nat.le_refl _), ?_⟩
      · rw [hsame]
        refine .obstructed mode hdel ?_
        rw [Disk.lstat, Disk.find_of_locate (hthere false) hdir]
        rfl
      · rw [hsame, hremoved]
        simpa [Held.of_removed hremoved] using hr.evolves hd hnoted id
    · have hfind := hnowhere.find (hr.led.locate hd.tree) false
      rw [remove_of_absent hu, hu]
      refine ⟨_, _, rfl, .done host.disk.tree hdel (fun mode hl => ?_) (fun _ _ => rfl) ?_,
        .of_disk hd rfl (Nat.le_refl _), ?_⟩
      · rw [Disk.lstat, hfind] at hl
        cases hl
      · exact hr.not_exists hd hnowhere
      · simpa [Except.toBool] using hr.settled hnowhere

/-! ## 4. What others do -/

/-- What someone else does at the path of a file changes nothing but its place, and leaves it
sound. -/
def Harmless (change : Held → Disk → Held × Disk) : Prop :=
  ∀ (host : Host) (r : Held), host.disk.WellFormed → r.Sound host →
    Evolves (· = r.place) host { host with disk := (change r host.disk).2 } ∧
      (change r host.disk).1.Sound { host with disk := (change r host.disk).2 }

/-- Nothing is done. -/
theorem evolves_idle (hd : host.disk.WellFormed) (hr : r.Sound host) :
    Evolves (· = r.place) host { host with disk := host.disk } ∧
      r.Sound { host with disk := host.disk } :=
  ⟨.of_disk hd rfl (Nat.le_refl _), hr⟩

theorem Held.unlinked_of_error {disk : Disk} {e : Errno} (hu : disk.unlink r.path = .error e) :
    r.unlinked disk = r := by
  unfold Held.unlinked
  rw [hu]
  simp [Except.toBool]

theorem Held.unlinked_of_ok {disk disk' : Disk} (hu : disk.unlink r.path = .ok disk') :
    r.unlinked disk = { r with removed := true } := by
  unfold Held.unlinked
  rw [hu]
  simp [Except.toBool]

theorem harmless_unlink :
    Harmless fun r disk => (r.unlinked disk, (disk.unlink r.path).toOption.getD disk) := by
  intro host r hd hr
  simp only
  rcases hr.unlink_cases hd with ⟨hremoved, -, hu⟩ | ⟨-, -, -, hu⟩ | ⟨-, hu⟩
  · obtain ⟨hev, hgone⟩ := evolves_remove hd hr hremoved
    rw [Held.unlinked_of_ok hu, hu]
    exact ⟨hev, hr.removal hev rfl (.inl hgone)⟩
  · rw [Held.unlinked_of_error hu, hu]
    exact evolves_idle hd hr
  · rw [Held.unlinked_of_error hu, hu]
    exact evolves_idle hd hr

/-- A directory is put where the file was. -/
theorem evolves_obstruct {disk : Disk} (hd : host.disk.WellFormed) (hr : r.Sound host)
    (hremoved : r.removed = false)
    (hm : ({ host.disk with tree := host.disk.tree.erase r.place } : Disk).makeDirectory r.path =
      .ok disk) :
    Evolves (· = r.place) host { host with disk } ∧
      ∃ mode, disk.tree.get? r.place = some (.directory mode) := by
  obtain ⟨hev, -⟩ := evolves_remove hd hr hremoved
  obtain ⟨loc, hl, -, -, rfl⟩ := Disk.makeDirectory_ok hm
  have hled := hr.led.ages hev.ages hev.rests fun _ hspent => hspent
  have hloc : loc = r.place := by
    rcases hled.locate hev.disk.tree with hthere | hlost
    · exact (Except.ok.inj ((hthere false).symm.trans hl)).symm
    · cases (hlost false).symm.trans hl
  subst hloc
  have hnode : ((host.disk.tree.erase r.place).set r.place (.directory 0o755)).get? r.place = _ :=
    Tree.get?_set_self hr.place_ne_nil _
  refine ⟨evolves_at hd hr (fun l hplace => ?_) (by rw [hr.file hremoved]; rfl)
    (hr.leaf hd hremoved) (.inr ⟨⟨_, hnode⟩, by rw [hr.file hremoved]; rfl⟩), _, hnode⟩
  rw [Tree.get?_set_of_ne hplace]
  exact hev.same l hplace

/-- A file that can be removed by its path was not deleted by its handle. -/
theorem Held.Sound.not_deleted (hr : r.Sound host) (hremoved : r.removed = false)
    (hthere : ∀ followLast, host.disk.locate followLast r.path = .ok r.place) :
    r.handle.deleted = false := by
  cases hdel : r.handle.deleted with
  | false => rfl
  | true =>
    rcases hr.gone hdel with hnone | hlost
    · rw [hr.file hremoved] at hnone
      cases hnone
    · cases (hlost false).symm.trans (hthere false)

theorem harmless_obstruct :
    Harmless fun r disk => (r.unlinked disk,
      match disk.unlink r.path with
      | .ok disk => (disk.makeDirectory r.path).toOption.getD disk
      | .error _ => disk) := by
  intro host r hd hr
  simp only
  rcases hr.unlink_cases hd with ⟨hremoved, hthere, hu⟩ | ⟨-, -, -, hu⟩ | ⟨-, hu⟩
  · rw [Held.unlinked_of_ok hu, hu]
    simp only
    cases hm : ({ host.disk with tree := host.disk.tree.erase r.place } : Disk).makeDirectory
        r.path with
    | error e =>
      obtain ⟨hev, hgone⟩ := evolves_remove hd hr hremoved
      exact ⟨hev, hr.removal hev rfl (.inl hgone)⟩
    | ok disk =>
      obtain ⟨hev, hdir⟩ := evolves_obstruct hd hr hremoved hm
      exact ⟨hev, hr.removal hev rfl (.inr ⟨hr.not_deleted hremoved hthere, hdir⟩)⟩
  · rw [Held.unlinked_of_error hu, hu]
    exact evolves_idle hd hr
  · rw [Held.unlinked_of_error hu, hu]
    exact evolves_idle hd hr

theorem harmless_clear :
    Harmless fun r disk => (r, (disk.removeDirectory r.path).toOption.getD disk) := by
  intro host r hd hr
  simp only
  cases hm : host.disk.removeDirectory r.path with
  | error e => exact evolves_idle hd hr
  | ok disk =>
    obtain ⟨loc, mode, hl, hdir, hleaf, rfl⟩ := Disk.removeDirectory_ok hm
    have hloc : loc = r.place := by
      rcases hr.led.locate hd.tree with hthere | hlost
      · exact (Except.ok.inj ((hthere false).symm.trans hl)).symm
      · cases (hlost false).symm.trans hl
    subst hloc
    obtain ⟨hev, hgone⟩ := evolves_erase hd hr (by rw [hdir]; rfl) hleaf
    have hremoved : r.removed = true := by
      cases hrem : r.removed with
      | true => rfl
      | false =>
        rw [hr.file hrem] at hdir
        cases hdir
    refine ⟨hev, ?_⟩
    have hsound := hr.removal hev rfl (.inl hgone)
    rw [Held.of_removed hremoved] at hsound
    exact hsound

/-! ## 5. New files -/

/-- A new file stands under a name that nothing bore. -/
theorem evolves_withFile {base : Location} {suffix : String} {k : Nat} (hd : host.disk.WellFormed)
    (hk : host.namesTaken ≤ k) (hsupply : k < supply) (hslash : '/' ∉ suffix.toList)
    (hdir : (host.disk.tree.get? base).any Node.isDirectory = true)
    (hvacant : host.disk.tree.get? (base ++ [named suffix k]) = none) (data : Text.Bytes) :
    Evolves (· = base ++ [named suffix k]) host
      (host.withFile (base ++ [named suffix k]) data (k + 1)) := by
  have hnode : (host.withFile (base ++ [named suffix k]) data (k + 1)).disk.tree.get?
      (base ++ [named suffix k]) = some (.file (.bytes data) 0o600) :=
    Tree.get?_set_self (by simp) _
  have hchange : Tree.ChangesAt (base ++ [named suffix k]) host.disk.tree
      (host.withFile (base ++ [named suffix k]) data (k + 1)).disk.tree := by
    refine ⟨fun l hl => Tree.get?_set_of_ne hl _, fun target hlink => ?_, fun target hlink => ?_⟩
    · rw [hvacant] at hlink
      cases hlink
    · rw [hnode] at hlink
      cases hlink
  refine ⟨Nat.le_succ_of_le hk, ⟨?_, hd.cwd⟩, hchange.others, ?_, hchange.ages ?_,
    hchange.rests ?_⟩
  · exact hd.tree.set_file hdir ⟨named_plain hslash k, named_ne_up suffix k⟩
      (by rw [hvacant]; rfl) _ _
  · intro endings last hreach hfree l hl name hm ending hending k' hk' hbound
    have hlater : k < k' := hk'
    by_cases hloc : l = base ++ [named suffix k]
    · subst hloc
      rcases List.mem_append.mp hm with hbase | hlast
      · have hthere : (host.disk.tree.get? base).isSome = true := by
          cases hn : host.disk.tree.get? base with
          | none =>
            rw [hn] at hdir
            cases hdir
          | some node => rfl
        exact hfree base hthere name hbase ending hending k' (by omega) hbound
      · rw [List.mem_singleton.mp hlast]
        intro hname
        have := named_inj hsupply (Nat.lt_of_lt_of_le hbound hreach) hname
        omega
    · rw [hchange.others l hloc] at hl
      exact hfree l hl name hm ending hending k' (by omega) hbound
  · intro hthere
    rw [hvacant] at hthere
    cases hthere
  · intro hspent _
    exact absurd hspent (not_spent hk hsupply base)

/-- A file that was just made is sound. -/
theorem made_sound {base : Location} {suffix : String} {k : Nat} {directory path : Path}
    {data : Text.Bytes} (hslash : '/' ∉ suffix.toList)
    (hev : Evolves (· = base ++ [named suffix k]) host
      (host.withFile (base ++ [named suffix k]) data (k + 1)))
    (hproper : directory.Proper) (habsolute : directory.isAbsolute = true)
    (hpath : path = directory.child (named suffix k))
    (hv : Files.LeadsToVacant host.disk path.text (base ++ [named suffix k])) :
    ({ handle := { path }, data, place := base ++ [named suffix k] } : Held).Sound
      (host.withFile (base ++ [named suffix k]) data (k + 1)) where
  bears := ⟨directory, base, suffix, k, Nat.lt_succ_self k, hslash, hproper, hpath, rfl⟩
  led := by
    have hplain := named_plain hslash k
    have hchild := hproper.child hplain
    have hparts : (directory.child (named suffix k)).parts ≠ [] := by
      rw [Path.child_plain _ hplain]
      simp
    have hstart : Text.startsWith path.text "/" = true := by
      rw [← Disk.isAbsolute_ofText, hpath, Path.ofText_text hchild hparts,
        Path.child_plain _ hplain]
      exact habsolute
    have hled : host.disk.Led (Spent host.namesTaken) path.text (base ++ [named suffix k]) :=
      .of_locate _ hstart hv.locate fun target => by rw [hv.vacant]; simp
    exact hled.ages hev.ages hev.rests fun _ => Spent.mono hev.names
  file := fun _ => Tree.get?_set_self (by simp) _
  rest := fun hremoved => by cases hremoved
  gone := fun hdel => by cases hdel

end Dissect.Lifetimes
