/-
# Worlds with disposable files

Any number of disposable files are made, deleted and used as scopes, one event after the other, while
others remove the files, put directories in their places and take these away again (`World.step`).
Whatever happens, every file that was made stays on record, its handle once it has deleted the file
and its removal (`World.keeps_run`), and the supply of names is used up step by step
(`World.names_run`).
-/
import Dissect.Proofs.FileCreation

namespace Dissect.Lifetimes

open Disposable
open Files (Disk Errno Location Node Tree)

/-! ## 1. Worlds -/

/-- A file that was made: the handle on it, its data, where it was made, and whether an attempt to
take it away has succeeded since. -/
structure Held where
  handle : Disposable
  data : Text.Bytes
  place : Location
  removed : Bool := false

namespace Held

/-- The path of the file, as the system is given it. -/
def path (r : Held) : String := r.handle.path.text

/-- The file after an attempt to take away what its path leads to. -/
def unlinked (r : Held) (disk : Disk) : Held :=
  { r with removed := r.removed || (disk.unlink r.path).toBool }

/-- The file after its handle was told to delete it. -/
def deleted (r : Held) (handle : Disposable) (disk : Disk) : Held :=
  { (if r.handle.deleted then r else r.unlinked disk) with handle }

end Held

/-- The host, and the files that were made, in order. -/
structure World where
  host : Host
  held : List Held := []

/-- What may happen to disposable files.  The first three events are the library's: a file is made,
is deleted, and is deleted because a scope is left, whose body may have failed.  The others are what
someone else does: remove the file, put a directory in its place, and remove that directory. -/
inductive Event where
  | create (data : Text.Bytes) (directory : Option String) (suffix : String)
      (interruption : Option Interruption)
  | delete (i : Nat)
  | leave (i : Nat) (body : Except Fault Unit)
  | unlink (i : Nat)
  | obstruct (i : Nat)
  | clear (i : Nat)

namespace World

/-- Deletes a file by its handle. -/
def delete (w : World) (i : Nat) : Except Fault Unit × World :=
  match w.held[i]? with
  | none => (.ok (), w)
  | some r =>
    match (Disposable.delete r.handle).exec w.host with
    | (.ok handle, host) => (.ok (), ⟨host, w.held.set i (r.deleted handle w.host.disk)⟩)
    | (.error fault, host) => (.error fault, { w with host })

/-- Someone else does something with the path of a file. -/
def outside (w : World) (i : Nat) (change : Held → Disk → Held × Disk) : World :=
  match w.held[i]? with
  | none => w
  | some r => {
      host := { w.host with disk := (change r w.host.disk).2 },
      held := w.held.set i (change r w.host.disk).1 }

/-- What an event comes to, and the world after it. -/
def step (w : World) : Event → Except Fault Unit × World
  | .create data directory suffix interruption =>
    match (createUnless interruption data (directory.map Path.ofText) suffix).exec w.host with
    | (.ok handle, host) =>
      let place := (w.host.disk.locate false handle.path.text).toOption.getD []
      (.ok (), { host, held := w.held ++ [{ handle, data, place }] })
    | (.error fault, host) => (.error fault, { w with host })
  | .delete i => w.delete i
  | .leave i body =>
    match w.delete i with
    | (.ok (), after) => (body, after)
    | (.error fault, after) => (.error fault, after)
  | .unlink i => (.ok (), w.outside i fun r disk =>
      (r.unlinked disk, (disk.unlink r.path).toOption.getD disk))
  | .obstruct i => (.ok (), w.outside i fun r disk =>
      (r.unlinked disk,
        match disk.unlink r.path with
        | .ok disk => (disk.makeDirectory r.path).toOption.getD disk
        | .error _ => disk))
  | .clear i => (.ok (), w.outside i fun r disk =>
      (r, (disk.removeDirectory r.path).toOption.getD disk))

/-- The world after some events. -/
def run (w : World) (events : List Event) : World :=
  events.foldl (fun w event => (w.step event).2) w

@[simp] theorem run_nil (w : World) : w.run [] = w := rfl

@[simp] theorem run_cons (w : World) (event : Event) (rest : List Event) :
    w.run (event :: rest) = (w.step event).2.run rest := rfl

end World

/-! ## 2. What stays -/

/-- The file later: the same one, and no less deleted or removed. -/
structure Held.Becomes (r r' : Held) : Prop where
  path : r'.handle.path = r.handle.path
  data : r'.data = r.data
  place : r'.place = r.place
  deleted : r.handle.deleted = true → r'.handle = r.handle
  removed : r.removed = true → r'.removed = true

namespace Held.Becomes

variable {r r' r'' : Held}

theorem refl (r : Held) : r.Becomes r := ⟨rfl, rfl, rfl, fun _ => rfl, id⟩

theorem trans (h : r.Becomes r') (h' : r'.Becomes r'') : r.Becomes r'' where
  path := h'.path.trans h.path
  data := h'.data.trans h.data
  place := h'.place.trans h.place
  deleted := fun hd => (h'.deleted (by rw [h.deleted hd]; exact hd)).trans (h.deleted hd)
  removed := fun hr => h'.removed (h.removed hr)

theorem unlinked (r : Held) (disk : Disk) : r.Becomes (r.unlinked disk) :=
  ⟨rfl, rfl, rfl, fun _ => rfl, fun hr => by simp [Held.unlinked, hr]⟩

end Held.Becomes

/-- Deleting has an end that a handle knows: it is not told twice. -/
theorem delete_exec (d : Disposable) (host : Host) :
    (Disposable.delete d).exec host =
      if d.deleted then (.ok d, host)
      else (.ok { d with deleted := (remove d.path host).2 }, (remove d.path host).1) := by
  unfold Disposable.delete Run.exec
  split <;> rfl

theorem becomes_deleted {r : Held} {host after : Host} {handle : Disposable}
    (h : (Disposable.delete r.handle).exec host = (.ok handle, after)) (disk : Disk) :
    r.Becomes (r.deleted handle disk) := by
  rw [delete_exec] at h
  unfold Held.deleted
  split at h
  · rename_i hd
    cases h
    simp only [hd, if_true]
    exact .refl r
  · rename_i hd
    cases h
    simp only [hd, Bool.false_eq_true, if_false]
    exact ⟨rfl, rfl, rfl, fun hdel => absurd hdel hd, (Held.Becomes.unlinked r disk).removed⟩

namespace World

variable {w : World} {i j : Nat} {r r' : Held}

/-- Every file is there later, in its turn. -/
def Keeps (w w' : World) : Prop :=
  ∀ (i : Nat) (r : Held), w.held[i]? = some r → ∃ r', w'.held[i]? = some r' ∧ r.Becomes r'

theorem Keeps.refl (w : World) : w.Keeps w := fun _ r hr => ⟨r, hr, .refl r⟩

theorem Keeps.trans {w' w'' : World} (h : w.Keeps w') (h' : w'.Keeps w'') : w.Keeps w'' := by
  intro i r hr
  obtain ⟨r', hr', hbecomes⟩ := h i r hr
  obtain ⟨r'', hr'', hbecomes'⟩ := h' i r' hr'
  exact ⟨r'', hr'', hbecomes.trans hbecomes'⟩

theorem keeps_set (hj : w.held[j]? = some r) (hbecomes : r.Becomes r') (host : Host) :
    w.Keeps ⟨host, w.held.set j r'⟩ := by
  intro i found hi
  by_cases hij : j = i
  · subst hij
    rw [hj] at hi
    cases hi
    have hlt := (List.getElem?_eq_some_iff.mp hj).1
    exact ⟨r', by simp [hlt], hbecomes⟩
  · exact ⟨found, by simp [List.getElem?_set_ne hij, hi], .refl found⟩

theorem keeps_delete (w : World) (i : Nat) : w.Keeps (w.delete i).2 := by
  unfold delete
  cases hr : w.held[i]? with
  | none => exact .refl w
  | some r =>
    simp only
    cases hd : (Disposable.delete r.handle).exec w.host with
    | mk result after =>
      cases result with
      | error fault => exact fun _ r hr => ⟨r, hr, .refl r⟩
      | ok handle => exact keeps_set hr (becomes_deleted hd _) after

theorem keeps_outside (w : World) (i : Nat) {change : Held → Disk → Held × Disk}
    (h : ∀ (r : Held) disk, r.Becomes (change r disk).1) : w.Keeps (w.outside i change) := by
  unfold outside
  cases hr : w.held[i]? with
  | none => exact .refl w
  | some r => exact keeps_set hr (h r _) _

theorem snd_leave (w : World) (i : Nat) (body : Except Fault Unit) :
    (w.step (.leave i body)).2 = (w.delete i).2 := by
  unfold step
  simp only
  split <;> rename_i heq <;> rw [heq]

/-- An event changes a file's record only by what it does to that file. -/
theorem keeps_step (w : World) (event : Event) : w.Keeps (w.step event).2 := by
  cases event with
  | create data directory suffix interruption =>
    unfold step
    simp only
    split
    · intro i r hr
      have hlt := (List.getElem?_eq_some_iff.mp hr).1
      exact ⟨r, by simp [List.getElem?_append_left hlt, hr], .refl r⟩
    · exact fun _ r hr => ⟨r, hr, .refl r⟩
  | delete i => exact keeps_delete w i
  | leave i body =>
    rw [snd_leave]
    exact keeps_delete w i
  | unlink i => exact keeps_outside w i fun r disk => .unlinked r disk
  | obstruct i => exact keeps_outside w i fun r disk => .unlinked r disk
  | clear i => exact keeps_outside w i fun r _ => .refl r

theorem keeps_run (w : World) (events : List Event) : w.Keeps (w.run events) := by
  induction events generalizing w with
  | nil => exact .refl w
  | cons event rest ih => exact (keeps_step w event).trans (ih _)

end World

/-! ## 3. The supply only shrinks -/

theorem fillUnless_names (interruption : Option Interruption) (data : Text.Bytes) (path : String)
    (host : Host) :
    ((fillUnless interruption data path).exec host).2.namesTaken = host.namesTaken := by
  have hwrite : ∀ bytes, ((Run.changeDisk fun disk => Errno.name path (disk.write path bytes)).exec
      host).2.namesTaken = host.namesTaken := by
    intro bytes
    rw [Run.exec_changeDisk]
    split <;> rfl
  rcases interruption with _ | ⟨fault⟩ | ⟨written, fault⟩
  · exact hwrite data
  · rfl
  · have hbytes := hwrite written
    unfold fillUnless
    simp only
    rw [Run.exec_bind]
    split
    · rename_i hexec
      rw [hexec] at hbytes
      exact hbytes
    · rename_i hexec
      rw [hexec] at hbytes
      exact hbytes

theorem remove_names (path : Path) (host : Host) :
    (remove path host).1.namesTaken = host.namesTaken := by
  unfold remove
  split <;> rfl

theorem discard_names (d : Disposable) (host : Host) :
    (d.discard host).namesTaken = host.namesTaken := by
  unfold Disposable.discard
  split
  · rfl
  · exact remove_names d.path host

theorem createUnless_names (interruption : Option Interruption) (data : Text.Bytes)
    (directory : Option Path) (suffix : String) (host : Host) :
    host.namesTaken ≤
      ((createUnless interruption data directory suffix).exec host).2.namesTaken := by
  unfold createUnless
  rw [createBy_exec]
  split
  · exact Nat.le_refl _
  · rename_i disk path next hclaim
    obtain ⟨k, hk, rfl, -⟩ := claim_ok hclaim
    have hfill := fillUnless_names interruption data path { host with disk, namesTaken := k + 1 }
    simp only
    split
    · rename_i hexec
      rw [hexec] at hfill
      rw [hfill]
      exact Nat.le_succ_of_le hk
    · rename_i hexec
      rw [hexec] at hfill
      split
      · rw [discard_names, hfill]
        exact Nat.le_succ_of_le hk
      · rw [hfill]
        exact Nat.le_succ_of_le hk

namespace World

theorem delete_names (w : World) (i : Nat) :
    (w.delete i).2.host.namesTaken = w.host.namesTaken := by
  unfold delete
  split
  · rfl
  · rename_i r _
    rw [delete_exec]
    split
    · rename_i heq
      split at heq
      · cases heq
        rfl
      · cases heq
        exact remove_names _ _
    · rename_i heq
      split at heq <;> cases heq

theorem outside_names (w : World) (i : Nat) (change : Held → Disk → Held × Disk) :
    (w.outside i change).host.namesTaken = w.host.namesTaken := by
  unfold outside
  split <;> rfl

theorem names_step (w : World) (event : Event) :
    w.host.namesTaken ≤ (w.step event).2.host.namesTaken := by
  cases event with
  | create data directory suffix interruption =>
    have hnames := createUnless_names interruption data (directory.map Path.ofText) suffix w.host
    unfold step
    simp only
    split
    · rename_i hexec
      rw [hexec] at hnames
      exact hnames
    · rename_i hexec
      rw [hexec] at hnames
      exact hnames
  | delete i => exact Nat.le_of_eq (delete_names w i).symm
  | leave i body =>
    rw [snd_leave]
    exact Nat.le_of_eq (delete_names w i).symm
  | unlink i => exact Nat.le_of_eq (outside_names w i _).symm
  | obstruct i => exact Nat.le_of_eq (outside_names w i _).symm
  | clear i => exact Nat.le_of_eq (outside_names w i _).symm

theorem names_run (w : World) (events : List Event) :
    w.host.namesTaken ≤ (w.run events).host.namesTaken := by
  induction events generalizing w with
  | nil => exact Nat.le_refl _
  | cons event rest ih => exact Nat.le_trans (names_step w event) (ih _)

end World

end Dissect.Lifetimes
