/-
# Stores that are left alone

A store is left alone (`ErrorStore.LeftAlone`) if its directory is found where it was, lists the same
names, has the same nodes at and below it, and no record number is given back.  Whatever else has
happened to the host, its books are then still in order (`Books.leftAlone`).

The run of a tool leaves every store alone that the service may have (`Service.cleaned_leavesAlone`):
all that it edits is the place of the class file (`Service.Edited`), and without that place the tree is
at any time what it was before.  It reads no clock either.
-/
import Dissect.Proofs.SilentRecords
import Dissect.Proofs.StoreRuns

namespace Dissect

open Files (Disk Location Node Tree SameBut LeadsToVacant)

/-! ## 1. Books of a store that is left alone -/

namespace ErrorStore

variable {s : ErrorStore} {loc : Location} {before after : Host}
  {all current listed : List ErrorRecord}

/-- Nothing has happened to the store between two hosts. -/
structure LeftAlone (s : ErrorStore) (before after : Host) : Prop where
  locate : ∀ loc, before.disk.locate true s.directory.text = .ok loc →
    after.disk.locate true s.directory.text = .ok loc
  nodes : ∀ loc, before.disk.locate true s.directory.text = .ok loc →
    ∀ rest, after.disk.tree.get? (loc ++ rest) = before.disk.tree.get? (loc ++ rest)
  listing : ∀ loc, before.disk.locate true s.directory.text = .ok loc →
    after.disk.tree.children loc = before.disk.tree.children loc
  numbers : before.recordsTaken ≤ after.recordsTaken

theorem LeftAlone.of_disk (hdisk : after.disk = before.disk)
    (hnumbers : before.recordsTaken ≤ after.recordsTaken) : LeftAlone s before after where
  locate := fun _ h => hdisk ▸ h
  nodes := fun _ _ _ => by rw [hdisk]
  listing := fun _ _ => by rw [hdisk]
  numbers := hnumbers

theorem Settled.leftAlone (h : Settled s before.disk loc) (ha : LeftAlone s before after) :
    Settled s after.disk loc := by
  have hself := ha.nodes loc h.locate []
  rw [List.append_nil] at hself
  exact .of_files h.proper (ha.locate loc h.locate) (hself ▸ h.directory)
    (fun name node hnode =>
      have hbefore := (ha.nodes loc h.locate [name]).symm.trans hnode
      ⟨h.files name node hbefore, h.plain name node hbefore⟩)
    fun name rest hrest => (ha.nodes loc h.locate (name :: rest)).trans (h.flat name rest hrest)

theorem Usable.leftAlone (h : Usable s before.disk loc) (ha : LeftAlone s before after) :
    Usable s after.disk loc :=
  { h with
    toSettled := h.toSettled.leftAlone ha
    fits := by rw [ha.listing loc h.locate]; exact h.fits }

/-- The manifest of a store that is left alone lists what it did. -/
theorem Usable.entries_leftAlone (h : Usable s before.disk loc) (ha : LeftAlone s before after) :
    s.entriesIn after.disk = s.entriesIn before.disk := by
  obtain ⟨hplain, hup⟩ := manifestName_plain
  unfold entriesIn manifestPath
  rw [h.held_congr (h.leftAlone ha).toSettled hplain hup (ha.nodes loc h.locate [manifestName])]

/-- **The books of a store that is left alone stay in order.** -/
theorem Books.leftAlone
    (h : Books s before.disk loc before.recordsTaken all current listed)
    (ha : LeftAlone s before after) :
    Books s after.disk loc after.recordsTaken all current listed := by
  have husable := h.usable.leftAlone ha
  have hnode : ∀ name, nodeAt after.disk loc name = nodeAt before.disk loc name := fun name =>
    ha.nodes loc h.usable.locate [name]
  obtain ⟨hplain, hup⟩ := manifestName_plain
  obtain ⟨hplain', hup'⟩ := statsName_plain
  have hentries := h.usable.entries_leftAlone ha
  have hstats : s.statsIn after.disk = s.statsIn before.disk := by
    unfold statsIn statsPath
    rw [h.usable.held_congr husable.toSettled hplain' hup' (hnode _)]
  exact {
    usable := husable
    numbered := h.numbered.mono ha.numbers
    subset := h.subset
    few := h.few.trans ha.numbers
    holds := {
      names := by rw [ha.listing loc h.usable.locate]; exact h.holds.names
      files := fun r hr => by rw [hnode]; exact h.holds.files r hr }
    manifest := fun hdeep =>
      h.manifest ((h.usable.tooDeep_congr husable.toSettled hplain hup (hnode _)).mp hdeep)
    lists := hentries ▸ h.lists
    greatest := h.greatest
    stats := fun hdeep =>
      h.stats ((h.usable.tooDeep_congr husable.toSettled hplain' hup' (hnode _)).mp hdeep)
    tally := hstats ▸ h.tally }

theorem Saved.cwd {d d' : Disk} {name : String} {document : Json}
    (h : Saved s loc name document d d') : d'.cwd = d.cwd := by
  cases h <;> rfl

/-- Opening a store keeps the disk a proper one. -/
theorem Usable.wellFormed_open (h : Usable s before.disk loc) (hd : before.disk.WellFormed) :
    ((openAt (some s.directory) s.maxErrors).exec before).2.disk.WellFormed := by
  obtain ⟨middle, disk, opened, hexec, ⟨log, rfl⟩, hmiddle, hdisk⟩ := h.open_exec
  obtain ⟨hplain, hup⟩ := manifestName_plain
  obtain ⟨hplain', hup'⟩ := statsName_plain
  have hfirst : Usable s middle loc ∧ middle.WellFormed := by
    split at hmiddle
    · rw [hmiddle]
      exact ⟨h, hd⟩
    · exact ⟨h.saved hmiddle hplain hup, hmiddle.wellFormed h.toSettled hplain hup hd.tree,
        hmiddle.cwd ▸ hd.cwd⟩
  rw [hexec]
  show disk.WellFormed
  split at hdisk
  · rw [hdisk]
    exact hfirst.2
  · exact ⟨hdisk.wellFormed hfirst.1.toSettled hplain' hup' hfirst.2.tree,
      hdisk.cwd ▸ hfirst.2.cwd⟩

end ErrorStore

/-! ## 2. Hosts that differ at the place of the class file -/

namespace Service

variable {s : Service} {unit : ClassUnit} {root : Path} {base host made : Host}
  {resource : Disposable} {place loc : Location} {path : Path}

/-- The host is the base but for one place of the disk: without it the tree is that of the base.  The
clock and the supply of record numbers are as they were. -/
structure Edited (base : Host) (place : Location) (host : Host) : Prop where
  disk : SameBut base.disk place host.disk
  rest : host.disk.tree.erase place = base.disk.tree.erase place
  clock : host.clock = base.clock
  numbers : host.recordsTaken = base.recordsTaken

namespace Edited

/-- Removing the file. -/
theorem unlink {disk : Disk} (h : Edited base place host) (hw : base.disk.tree.WellFormed)
    (hv : LeadsToVacant base.disk path.text place) (hu : host.disk.unlink path.text = .ok disk) :
    Edited base place { host with disk } := by
  have hdisk := h.disk.unlink hw hv hu
  obtain ⟨reached, node, hl, -, -, rfl⟩ := Disk.unlink_ok hu
  rw [h.disk.locate hv] at hl
  cases hl
  exact ⟨hdisk, (Tree.erase_erase _ _).trans h.rest, h.clock, h.numbers⟩

/-- Making a directory in its place. -/
theorem makeDirectory {disk : Disk} (h : Edited base place host)
    (hv : LeadsToVacant base.disk path.text place)
    (hm : host.disk.makeDirectory path.text = .ok disk) : Edited base place { host with disk } := by
  have hdisk := h.disk.makeDirectory hv hm
  obtain ⟨reached, hl, -, -, rfl⟩ := Disk.makeDirectory_ok hm
  rw [h.disk.locate hv] at hl
  cases hl
  exact ⟨hdisk, (Tree.erase_set _ _ _).trans h.rest, h.clock, h.numbers⟩

/-- Discarding the file. -/
theorem discard (h : Edited base place host) (hw : base.disk.tree.WellFormed)
    (hv : LeadsToVacant base.disk path.text place) :
    Edited base place (Disposable.discard { path } host) := by
  unfold Disposable.discard Disposable.remove
  simp only [Bool.false_eq_true, if_false]
  split
  · rename_i disk hu
    exact h.unlink hw hv hu
  · exact h
  · exact { h with }

/-- What a directory lists, if the place is neither one of its entries nor on the way to it. -/
theorem children (h : Edited base place host) (ha : ∀ name, ¬ place <+: loc ++ [name]) :
    host.disk.tree.children loc = base.disk.tree.children loc := by
  rw [← Tree.children_erase_of_apart host.disk.tree ha, h.rest,
    Tree.children_erase_of_apart base.disk.tree ha]

end Edited

theorem indifferent_edited : Import.Indifferent (Edited base place) where
  write := fun _ _ _ _ h _ => { h with }
  modules := fun _ _ h => { h with }

theorem spares_edited (hw : base.disk.tree.WellFormed)
    (hv : LeadsToVacant base.disk path.text place) (b : Backend) :
    Import.Spares (Edited base place) (b.argumentsFor path) where
  unlink := fun host last disk h hl hu => by
    rw [Backend.argumentsFor, List.getLast?_concat] at hl
    cases hl
    exact h.unlink hw hv hu
  makeDirectory := fun host last disk h hl hm => by
    rw [Backend.argumentsFor, List.getLast?_concat] at hl
    cases hl
    exact h.makeDirectory hv hm

/-- **The tool and the cleanup after it edit nothing but the place of the class file.** -/
theorem edited_tidied (root : Path) (hinvoker : s.invoker = Invocation.invoke)
    (hw : base.disk.tree.WellFormed) (hv : LeadsToVacant base.disk path.text place)
    (h : Edited base place made) : Edited base place (s.tidied root { path } made) := by
  have hend : Edited base place (s.toolEnd root { path } made) := by
    unfold toolEnd
    rw [hinvoker]
    exact Invocation.invoke_keeps indifferent_edited _ _ _ (spares_edited hw hv _) _ { h with }
  exact Edited.discard ⟨hend.disk, hend.rest, hend.clock, hend.numbers⟩ hw hv

/-- So does making it. -/
theorem edited_made (hfits : s.Fits host) (hmake : s.makeFile unit host = (.ok resource, made)) :
    ∃ path place, resource = { path } ∧ LeadsToVacant host.disk path.text place ∧
      s.OutsideStore host.disk place ∧ Edited host place made := by
  obtain ⟨path, base, name, disk, namesTaken, rfl, hbase, hv, hs, rfl⟩ :=
    makeFile_ok hfits.toReady hmake
  obtain ⟨_, place, disk', _, _, hv', _, _, hrest, hmade⟩ :=
    Disposable.create_places (by exact hfits.disk) hfits.temp hmake
  have hplace : place = base ++ [name] := Except.ok.inj (hv'.locate.symm.trans hv.locate)
  have hdisk : disk = disk' := congrArg Host.disk hmade
  subst hplace
  subst hdisk
  exact ⟨path, _, rfl, hv, hfits.store.outside_entry hfits.disk.tree hbase name, hs, hrest, rfl, rfl⟩

/-! ## 3. The store after the run of the tool -/

/-- A place outside the store at which nothing is, is neither an entry of its directory nor on the way
to it. -/
theorem apart_of_outside {store : ErrorStore} (hstore : s.store = some store)
    (hw : host.disk.tree.WellFormed) (henclosed : store.Enclosed host.disk loc)
    (hv : host.disk.tree.get? place = none) (hout : s.OutsideStore host.disk place) (name : String) :
    ¬ place <+: loc ++ [name] := by
  intro hp
  rcases List.prefix_concat_iff.mp hp with rfl | ⟨rest, rfl⟩
  · exact hout store loc hstore henclosed.locate (ErrorStore.below_child loc name)
  · obtain ⟨mode, hmode⟩ := henclosed.directory
    by_cases hrest : rest = []
    · rw [hrest, List.append_nil, hv] at hmode
      cases hmode
    · rw [hw.vacant_below (by rw [hv]; rfl) hrest] at hmode
      cases hmode

/-- **The run of the tool leaves the store alone, and does not read the clock.** -/
theorem cleaned_leavesAlone {store : ErrorStore} (unit : ClassUnit) (root : Path)
    (hstore : s.store = some store) (hinvoker : s.invoker = Invocation.invoke)
    (hfits : s.Fits host) (henclosed : store.Enclosed host.disk loc) :
    store.LeftAlone host (s.cleaned unit root host) ∧
      (s.cleaned unit root host).clock = host.clock ∧
      (s.cleaned unit root host).recordsTaken = host.recordsTaken := by
  cases hmake : s.makeFile unit host with
  | mk result made =>
    cases result with
    | error fault =>
      obtain ⟨namesTaken, hcleaned⟩ := cleaned_unmade root hfits.toReady hmake
      rw [hcleaned]
      exact ⟨.of_disk rfl (Nat.le_refl _), rfl, rfl⟩
    | ok resource =>
      obtain ⟨path, place, rfl, hv, hout, hmade⟩ := edited_made hfits hmake
      have hedited := edited_tidied root hinvoker hfits.disk.tree hv hmade
      have hleaves := cleaned_leavesDisk unit root hinvoker hfits.toReady
      have hcleaned := cleaned_of_ok root hmake
      rw [← hcleaned] at hedited
      have hsame : ∀ other, host.disk.locate true store.directory.text = .ok other → loc = other :=
        fun other hother => Except.ok.inj (henclosed.locate.symm.trans hother)
      refine ⟨⟨fun other hother => Disk.locate_keeps hleaves.keeps hleaves.cwd hother,
        fun other hother rest => ?_, fun other hother => ?_, Nat.le_of_eq hedited.numbers.symm⟩,
        hedited.clock, hedited.numbers⟩
      · obtain rfl := hsame other hother
        by_cases hrest : rest = []
        · obtain ⟨mode, hmode⟩ := henclosed.directory
          rw [hrest, List.append_nil, hmode, hleaves.keeps.directory loc mode hmode]
        · refine hleaves.inStore hfits fun ho => ?_
          exact ho store loc hstore hother ⟨List.prefix_append _ _, by simpa using hrest⟩
      · obtain rfl := hsame other hother
        exact hedited.children
          (apart_of_outside hstore hfits.disk.tree henclosed hv.vacant hout)

end Service

end Dissect
