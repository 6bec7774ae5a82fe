/-
# The lifetimes of disposable files

In every world that comes of any events, as long as the supply of names lasts, the files are apart
from each other, each holds its data until it is removed, and deleting one never fails and never
touches another one (`lifetimes`).

One event leaves a sound world sound (`World.Sound.step`), and so does a whole run
(`World.Sound.run`); a sound world is an orderly one.
-/
import Dissect.Proofs.SoundFiles

namespace Dissect.Lifetimes

open Disposable
open Files (Disk Errno Location Node Tree)

variable {host after : Host} {r : Held} {endings : List String} {last : Nat}

/-! ## 1. Sound worlds -/

/-- What an event that makes a file puts at the end of a name before the last one. -/
def Event.innerSuffix? : Event → Option String
  | .create _ _ suffix _ => Disposable.innerSuffix? suffix
  | _ => none

/-- The files of a world are sound and their names differ, and nothing bears a name that is still to
come, up to a number that the supply reaches. -/
structure World.Sound (endings : List String) (last : Nat) (w : World) : Prop where
  disk : w.host.disk.WellFormed
  bound : last ≤ supply
  free : NamesFree w.host.disk.tree endings w.host.namesTaken last
  held : ∀ r ∈ w.held, r.Sound w.host
  apart : (w.held.map fun r => r.place.getLast?).Nodup

namespace World

variable {w : World} {i j : Nat} {r r' s : Held}

theorem Sound.place_ne (h : w.Sound endings last) (hi : w.held[i]? = some r) (hj : w.held[j]? = some s)
    (hij : j ≠ i) : s.place ≠ r.place := by
  intro hplace
  have hlt : j < (w.held.map fun r => r.place.getLast?).length := by
    rw [List.length_map]
    exact (List.getElem?_eq_some_iff.mp hj).1
  refine hij ((List.getElem?_inj hlt h.apart).mp ?_)
  rw [List.getElem?_map, List.getElem?_map, hi, hj]
  simp [hplace]

/-- A world is sound after a change to one file and its place. -/
theorem Sound.set (h : w.Sound endings last) (hr : w.held[i]? = some r)
    (hev : Evolves (· = r.place) w.host after) (hplace : r'.place = r.place)
    (hr' : r'.Sound after) : World.Sound endings last ⟨after, w.held.set i r'⟩ where
  disk := hev.disk
  bound := h.bound
  free := hev.free h.bound h.free
  held := fun s hs => by
    obtain ⟨j, hj⟩ := List.mem_iff_getElem?.mp hs
    by_cases hij : j = i
    · subst hij
      rw [List.getElem?_set_self (List.getElem?_eq_some_iff.mp hr).1] at hj
      cases hj
      exact hr'
    · rw [List.getElem?_set_ne (Ne.symm hij)] at hj
      exact (h.held s (List.mem_of_getElem? hj)).evolves h.disk hev (h.place_ne hr hj hij)
  apart := by
    have hsame : ((w.held.set i r').map fun r => r.place.getLast?) =
        w.held.map fun r => r.place.getLast? := by
      refine List.ext_getElem? fun j => ?_
      rw [List.getElem?_map, List.getElem?_map]
      by_cases hij : i = j
      · subst hij
        rw [List.getElem?_set_self (List.getElem?_eq_some_iff.mp hr).1, hr]
        simp [hplace]
      · rw [List.getElem?_set_ne hij]
    rw [hsame]
    exact h.apart

theorem Sound.delete (h : w.Sound endings last) (i : Nat) :
    (w.delete i).1 = .ok () ∧ (w.delete i).2.Sound endings last := by
  unfold World.delete
  cases hr : w.held[i]? with
  | none => exact ⟨rfl, h⟩
  | some r =>
    obtain ⟨handle, after, hexec, -, hev, hsound⟩ :=
      delete_sound (h.held r (List.mem_of_getElem? hr)) h.disk
    simp only [hexec]
    refine ⟨trivial, h.set hr hev ?_ hsound⟩
    exact (becomes_deleted hexec _).place

theorem Sound.outside (h : w.Sound endings last) (i : Nat) {change : Held → Disk → Held × Disk}
    (hharmless : Harmless change) (hbecomes : ∀ (r : Held) disk, r.Becomes (change r disk).1) :
    (w.outside i change).Sound endings last := by
  unfold World.outside
  cases hr : w.held[i]? with
  | none => exact h
  | some r =>
    obtain ⟨hev, hsound⟩ := hharmless w.host r h.disk (h.held r (List.mem_of_getElem? hr))
    exact h.set hr hev (hbecomes r _).place hsound

/-- A world is sound after a change where none of its files is. -/
theorem Sound.evolves (h : w.Sound endings last) {touched : Location → Prop}
    (hev : Evolves touched w.host after) (haway : ∀ r ∈ w.held, ¬ touched r.place) :
    World.Sound endings last { w with host := after } where
  disk := hev.disk
  bound := h.bound
  free := hev.free h.bound h.free
  held := fun r hr => (h.held r hr).evolves h.disk hev (haway r hr)
  apart := h.apart

/-- One more file, under a name that none of the others has. -/
theorem Sound.append (h : w.Sound endings last) {r : Held} (hr : r.Sound w.host)
    (hnew : ∀ s ∈ w.held, s.place.getLast? ≠ r.place.getLast?) :
    World.Sound endings last { w with held := w.held ++ [r] } where
  disk := h.disk
  bound := h.bound
  free := h.free
  held := fun s hs => by
    rcases List.mem_append.mp hs with hold | hlast
    · exact h.held s hold
    · rw [List.mem_singleton.mp hlast]
      exact hr
  apart := by
    rw [List.map_append, List.map_singleton]
    refine List.nodup_append.mpr ⟨h.apart, by simp, fun name hm other ho => ?_⟩
    obtain ⟨s, hs, rfl⟩ := List.mem_map.mp hm
    rw [List.mem_singleton.mp ho]
    exact hnew s hs

/-- No file bears a new name. -/
theorem Sound.name_ne (h : w.Sound endings last) {base : Location} {suffix : String} {k : Nat}
    (hk : w.host.namesTaken ≤ k) (hsupply : k < supply) :
    ∀ s ∈ w.held, s.place.getLast? ≠ (base ++ [named suffix k]).getLast? := by
  intro s hs hlast
  obtain ⟨base', suffix', k', hk', hplace⟩ := (h.held s hs).spent
  rw [hplace, List.getLast?_concat, List.getLast?_concat] at hlast
  have := named_inj (by omega) hsupply (Option.some.inj hlast)
  omega

/-- A file of any data at a place that was found for it, as long as its number is below the bound, is a
change at that place only; none of the files stands there or has its name; and with a handle on it
the file itself is sound. -/
theorem Sound.found (h : w.Sound endings last) {directory : Option Path} {suffix path : String}
    {disk : Disk} {next : Nat} {loc : Location}
    (hp : ∀ path, directory = some path → path.Proper)
    (hinner : ∀ ending ∈ Disposable.innerSuffix? suffix, ending ∈ endings)
    (hplace : place w.host directory suffix = .ok (disk, path, next))
    (hv : Files.LeadsToVacant w.host.disk (Path.ofText path).text loc) (hnext : next ≤ last)
    (data : Text.Bytes) :
    Evolves (· = loc) w.host (w.host.withFile loc data next) ∧
      (∀ s ∈ w.held, s.place.getLast? ≠ loc.getLast?) ∧
      ({ handle := { path := Path.ofText path }, data, place := loc } : Held).Sound
        (w.host.withFile loc data next) := by
  obtain ⟨base, k, hk, rfl, hslash, hof, hpath, hl, hdir, hvacant⟩ :=
    place_spec h.disk hp h.free hinner hnext hplace
  rw [hpath, hv.locate] at hl
  cases hl
  have hnew : k < supply := Nat.lt_of_lt_of_le hnext h.bound
  have hev := evolves_withFile h.disk hk hnew hslash hdir hvacant data
  exact ⟨hev, h.name_ne hk hnew, made_sound hslash hev (directoryFor_proper h.disk hp)
    (Disk.isAbsolute_absolute _ _) hof hv⟩

/-- No file stands at a place whose name none of them has. -/
theorem away {loc : Location} (hnew : ∀ s ∈ w.held, s.place.getLast? ≠ loc.getLast?) :
    ∀ r ∈ w.held, ¬ r.place = loc := fun r hr hplace =>
  hnew r hr (congrArg List.getLast? hplace)

theorem Sound.create (h : w.Sound endings last) (data : Text.Bytes) (directory : Option String)
    (suffix : String) (interruption : Option Interruption)
    (hinner : ∀ ending ∈ Disposable.innerSuffix? suffix, ending ∈ endings)
    (hlast : (w.step (.create data directory suffix interruption)).2.host.namesTaken ≤ last) :
    (w.step (.create data directory suffix interruption)).2.Sound endings last := by
  have hp : ∀ path, directory.map Path.ofText = some path → path.Proper := by
    intro path hpath
    obtain ⟨text, -, rfl⟩ := Option.map_eq_some_iff.mp hpath
    exact Path.ofText_proper text
  unfold step at hlast ⊢
  simp only at hlast ⊢
  cases hplace : place w.host (directory.map Path.ofText) suffix with
  | error fault =>
    rw [createUnless_refused hplace]
    exact h
  | ok made =>
    obtain ⟨disk, path, next⟩ := made
    cases interruption with
    | none =>
      obtain ⟨loc, hv, hexec⟩ := createUnless_made data hplace
      rw [hexec] at hlast ⊢
      obtain ⟨hev, hnew, hsound⟩ := h.found hp hinner hplace hv hlast data
      simp only [hv.locate]
      exact (h.evolves hev (away hnew)).append hsound hnew
    | some cause =>
      obtain ⟨loc, hv, hexec⟩ := createUnless_interrupted data h.disk.tree cause hplace
      rw [hexec] at hlast ⊢
      simp only at hlast ⊢
      cases hblame : cause.fault.isA .osError with
      | true =>
        obtain ⟨k, hk, rfl, -⟩ := claim_ok hplace
        have hev : Evolves (fun _ => False) w.host { w.host with namesTaken := k + 1 } :=
          .of_disk h.disk rfl (Nat.le_succ_of_le hk)
        exact h.evolves hev fun _ _ => id
      | false =>
        rw [hblame] at hlast
        obtain ⟨hev, hnew, -⟩ := h.found hp hinner hplace hv hlast cause.written
        exact h.evolves hev (away hnew)

/-- **An event leaves a world sound**, as long as it draws no number from the bound on. -/
theorem Sound.step (h : w.Sound endings last) (event : Event)
    (hinner : ∀ ending ∈ event.innerSuffix?, ending ∈ endings)
    (hlast : (w.step event).2.host.namesTaken ≤ last) : (w.step event).2.Sound endings last := by
  cases event with
  | create data directory suffix interruption =>
    exact h.create data directory suffix _ hinner hlast
  | delete i => exact (h.delete i).2
  | leave i body =>
    rw [snd_leave]
    exact (h.delete i).2
  | unlink i => exact h.outside i harmless_unlink fun r disk => .unlinked r disk
  | obstruct i => exact h.outside i harmless_obstruct fun r disk => .unlinked r disk
  | clear i => exact h.outside i harmless_clear fun r _ => .refl r

/-- **Any number of events leave a world sound**, as long as they draw no number from the bound on. -/
theorem Sound.run (h : w.Sound endings last) (events : List Event)
    (hinner : ∀ ending ∈ events.filterMap Event.innerSuffix?, ending ∈ endings)
    (hlast : (w.run events).host.namesTaken ≤ last) : (w.run events).Sound endings last := by
  induction events generalizing w with
  | nil => exact h
  | cons event rest ih =>
    refine ih (h.step event (fun ending he => hinner _ ?_) (Nat.le_trans (names_run _ rest) hlast))
      (fun ending he => hinner _ ?_) hlast
    · exact List.mem_filterMap.mpr ⟨event, List.mem_cons_self, he⟩
    · obtain ⟨later, hlater, hsome⟩ := List.mem_filterMap.mp he
      exact List.mem_filterMap.mpr ⟨later, List.mem_cons_of_mem _ hlater, hsome⟩

/-- A world in which no file was made is sound. -/
theorem Sound.start (hd : host.disk.WellFormed) (hbound : last ≤ supply)
    (hfree : NamesFree host.disk.tree endings host.namesTaken last) :
    World.Sound endings last { host } :=
  ⟨hd, hbound, hfree, fun _ hr => absurd hr List.not_mem_nil, List.Pairwise.nil⟩

end World

/-! ## 2. Lifetimes -/

/-- The file holds its data, and its path reads them as long as its directory can be reached. -/
def Held.Holds (r : Held) (d : Disk) : Prop :=
  d.tree.get? r.place = some (.file (.bytes r.data) 0o600) ∧
    (d.isDirectory r.handle.path.parent = .ok true → d.read r.path = .ok r.data)

theorem Held.Sound.holds (hr : r.Sound host) (hd : host.disk.WellFormed)
    (hremoved : r.removed = false) : r.Holds host.disk := by
  refine ⟨hr.file hremoved, fun hparent => ?_⟩
  rcases hr.led.locate hd.tree with hthere | hlost
  · have hfind := Disk.find_of_locate (hthere true) (hr.file hremoved)
    simp [Disk.read, Disk.stat, hfind, Except.map, bind, Except.bind, Files.Content.data]
  · exfalso
    obtain ⟨directory, base, suffix, k, -, hslash, hproper, hpath, -⟩ := hr.bears
    have hplain := named_plain hslash k
    have hup : r.handle.path.parent = directory := by
      rw [hpath, Path.child_plain _ hplain]
      simp [Path.parent]
    rw [hup] at hparent
    obtain ⟨-, mode, hstat⟩ := Disk.isDirectory_true_iff.mp hparent
    unfold Disk.stat at hstat
    cases hf : host.disk.find true directory.text with
    | error e =>
      rw [hf] at hstat
      cases hstat
    | ok found =>
      obtain ⟨loc, node⟩ := found
      rw [hf] at hstat
      cases hstat
      obtain ⟨hl, hn⟩ := Disk.find_ok hf
      have hlocate : host.disk.locate false (directory.child (named suffix k)).text = _ :=
        Disk.locate_in hproper hplain (named_ne_up suffix k) hl (by rw [hn]; rfl)
          (fun hfollow => by cases hfollow)
      have hnowhere := hlost false
      unfold Held.path at hnowhere
      rw [hpath, hlocate] at hnowhere
      split at hnowhere <;> cases hnowhere

/-- What a world of disposable files is like: their paths and places differ, each holds its data
until it is removed, deleting one comes to what it should and never fails, also at the end of a scope
that failed, and what was deleted is not there. -/
structure World.Orderly (w : World) : Prop where
  paths : (w.held.map fun r => r.handle.path).Nodup
  places : (w.held.map fun r => r.place).Nodup
  holds : ∀ r ∈ w.held, r.removed = false → r.Holds w.host.disk
  deletes : ∀ r ∈ w.held, ∃ handle after,
    (Disposable.delete r.handle).exec w.host = (.ok handle, after) ∧
      Deletes w.host r handle after
  gone : ∀ r ∈ w.held, r.handle.deleted = true →
    w.host.disk.exists? r.handle.path = .ok false
  quiet : ∀ i body, (w.step (.delete i)).1 = .ok () ∧ (w.step (.leave i body)).1 = body

/-- What tells the last names of the places apart tells the files apart. -/
theorem World.Sound.nodup {α : Type} {w : World} (h : w.Sound endings last) (f : Held → α)
    (hf : ∀ r ∈ w.held, ∀ s ∈ w.held, f r = f s → r.place.getLast? = s.place.getLast?) :
    (w.held.map f).Nodup := by
  have hapart := h.apart
  unfold List.Nodup at hapart ⊢
  rw [List.pairwise_map] at hapart ⊢
  exact hapart.imp_of_mem fun hr hs hne he => hne (hf _ hr _ hs he)

/-- A file bears the last name of its path. -/
theorem Held.Sound.lastName (hr : r.Sound host) :
    r.handle.path.parts.getLast? = r.place.getLast? := by
  obtain ⟨directory, base, suffix, k, -, hslash, -, hpath, hplace⟩ := hr.bears
  rw [hpath, hplace, Path.child_plain _ (named_plain hslash k)]
  simp

theorem World.Sound.orderly {w : World} (h : w.Sound endings last) : w.Orderly where
  paths := h.nodup _ fun r hr s hs he => by
    rw [← (h.held r hr).lastName, ← (h.held s hs).lastName, he]
  places := h.nodup _ fun _ _ _ _ he => congrArg List.getLast? he
  holds := fun r hr hremoved => (h.held r hr).holds h.disk hremoved
  deletes := fun r hr => by
    obtain ⟨handle, after, hexec, hdeletes, -⟩ := delete_sound (h.held r hr) h.disk
    exact ⟨handle, after, hexec, hdeletes⟩
  gone := fun r hr hdel => (h.held r hr).not_exists h.disk ((h.held r hr).gone hdel)
  quiet := fun i body => by
    have hdelete := (h.delete i).1
    refine ⟨hdelete, ?_⟩
    unfold World.step
    simp only
    split
    · rfl
    · rename_i heq
      rw [heq] at hdelete
      cases hdelete

/-- **The lifetimes of disposable files.**  Whatever happens to them, one after the other, as long as
the supply of names lasts: the world is orderly, and every file is still the one it was before, with
its handle settled once it has deleted the file.  Names before the last one, which only suffixes with
slashes ask for, must not have been borne before; without such suffixes `NamesFree` asks nothing. -/
theorem lifetimes (hd : host.disk.WellFormed) (before later : List Event)
    (hfree : NamesFree host.disk.tree ((before ++ later).filterMap Event.innerSuffix?)
      host.namesTaken ((World.run { host } before).run later).host.namesTaken)
    (hsupply : ((World.run { host } before).run later).host.namesTaken ≤ supply) :
    ((World.run { host } before).run later).Orderly ∧
      (World.run { host } before).Keeps ((World.run { host } before).run later) := by
  have hearlier := (World.Sound.start hd hsupply hfree).run before
    (List.filterMap_subset _ (List.subset_append_left before later)) (World.names_run _ later)
  have hnow := hearlier.run later
    (List.filterMap_subset _ (List.subset_append_right before later)) (Nat.le_refl _)
  exact ⟨hnow.orderly, World.keeps_run _ later⟩

/-- Two files, the first of which is obstructed when it is first deleted and cleared before a scope
that was interrupted ends with it; and a suffix with a slash, for which there is no directory. -/
theorem lifetimes_obstructed :
    let host : Host := { disk := { tree := ⟨[(["tmp"], .directory 0o777)]⟩ } }
    let before : List Event := [.create [0xca] none ".class" none,
      .create [0xfe] (some "/tmp") ".txt" none, .obstruct 0, .delete 0]
    let later : List Event := [.clear 0, .leave 0 (.error { kind := .keyboardInterrupt }),
      .create [0xba] none ".d/Main.class" none, .delete 0]
    ∃ earlier now : World, earlier = World.run { host } before ∧ now = earlier.run later ∧
      host.disk.WellFormed ∧ (before ++ later).filterMap Event.innerSuffix? = [".d"] ∧
      NamesFree host.disk.tree [".d"] host.namesTaken now.host.namesTaken ∧
      now.host.namesTaken ≤ supply ∧
      (now.held.map fun r => (r.handle.deleted, r.removed)) = [(true, true), (false, false)] ∧
      now.Orderly ∧ earlier.Keeps now := by
  intro host before later
  have hw : host.disk.WellFormed := by
    refine ⟨Tree.WellFormed.of_nodes fun entry hmem name hname => ?_, by simp [host]⟩
    cases List.mem_singleton.mp hmem
    cases hname
    exact ⟨by decide, rfl⟩
  have hinner : (before ++ later).filterMap Event.innerSuffix? = [".d"] := by decide +kernel
  have hfree : ∀ last, NamesFree host.disk.tree [".d"] host.namesTaken last := by
    intro last l hl name hm ending _ k _ _ he
    obtain ⟨node, hnode⟩ := Option.isSome_iff_exists.mp hl
    have hmem := Tree.mem_of_get? (List.ne_nil_of_mem hm) hnode
    cases List.mem_singleton.mp hmem
    rw [List.mem_singleton.mp hm] at he
    have hchars := congrArg String.toList he
    rw [toList_named] at hchars
    cases hchars
  have hsupply : ((World.run { host } before).run later).host.namesTaken ≤ supply := by
    decide +kernel
  refine ⟨_, _, rfl, rfl, hw, hinner, hfree _, hsupply, ?_,
    lifetimes hw before later (by rw [hinner]; exact hfree _) hsupply⟩
  decide +kernel

end Dissect.Lifetimes
