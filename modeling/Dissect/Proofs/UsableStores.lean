/-
# Stores that can be used

A store can be used (`ErrorStore.Usable`) if its directory holds nothing but regular files under names
that fit, and has room for the manifest and the statistics; what these files hold does not matter.
A record of a failure can be made and saved in such a store (`Usable.saveRecord_exec`), and so can the
manifest (`Usable.saveManifest_exec`): what was saved is read again (`Usable.saved_manifest`), as all
that is read from such a store is within the limits of what can be written and read.
-/
import Dissect.Proofs.StoreSteps
import Dissect.Proofs.Summaries

namespace Dissect

open Files (Disk Location Tree)

namespace ErrorStore

open Files.Disk (Nameable)

variable {s : ErrorStore} {d d' : Disk} {loc : Location} {name : String} {host : Host}
  {fault : Fault} {report : Report} {stamp : Json}

/-! ## 1. Stores that can be used -/

/-- The store's directory holds nothing but regular files under names that fit, and there is room for
the names of the manifest and the statistics. -/
structure Usable (s : ErrorStore) (d : Disk) (loc : Location) : Prop extends Settled s d loc where
  nameable : Nameable s.directory.text
  manifestFits : Fits s manifestName
  statsFits : Fits s statsName
  fits : ∀ name ∈ d.tree.children loc, Fits s name

theorem manifestName_plain : Path.IsPlain manifestName ∧ manifestName ≠ ".." := by
  decide

theorem statsName_plain : Path.IsPlain statsName ∧ statsName ≠ ".." := by
  decide

namespace Usable

variable (h : Usable s d loc)
include h

theorem saved {document : Json} (hs : Saved s loc name document d d') (hn : Path.IsPlain name)
    (hup : name ≠ "..") : Usable s d' loc :=
  ⟨hs.settled h.toSettled hn hup, h.nameable, h.manifestFits, h.statsFits, hs.fits h.fits⟩

theorem left {names : List String} (hl : Left s loc names d d') : Usable s d' loc :=
  ⟨hl.settled, h.nameable, h.manifestFits, h.statsFits, hl.fits h.fits⟩

theorem nameable_manifest : Nameable s.manifestPath.text :=
  Disk.nameable_child h.nameable manifestName_plain.1 (Disk.nameable_of_ascii (by decide))

theorem nameable_stats : Nameable s.statsPath.text :=
  Disk.nameable_child h.nameable statsName_plain.1 (Disk.nameable_of_ascii (by decide))

end Usable

/-- How many records a store keeps has no part in it. -/
theorem Usable.keeping (h : Usable s d loc) (maxErrors : Int) :
    Usable { s with maxErrors } d loc :=
  { proper := h.proper, locate := h.locate, directory := h.directory, plain := h.plain, ends := h.ends,
    flat := h.flat, files := h.files, nameable := h.nameable, manifestFits := h.manifestFits,
    statsFits := h.statsFits, fits := h.fits }

/-- A store on a directory that holds nothing. -/
theorem Usable.of_bare (hproper : s.directory.Proper)
    (hlocate : d.locate true s.directory.text = .ok loc)
    (hdirectory : ∃ mode, d.tree.get? loc = some (.directory mode))
    (hbare : ∀ entry ∈ d.tree.nodes, ¬ Below loc entry.1) (hname : Nameable s.directory.text)
    (hmanifest : Fits s manifestName) (hstats : Fits s statsName) : Usable s d loc := by
  have hnone : d.tree.children loc = [] := List.eq_nil_iff_forall_not_mem.mpr fun name hmem => by
    obtain ⟨node, hnode⟩ := Tree.mem_children_iff.mp hmem
    exact hbare _ (Tree.mem_of_get? (by simp) hnode) (below_child loc name)
  exact {
    Settled.of_nodes hproper hlocate hdirectory fun entry he hbelow => absurd hbelow (hbare entry he)
      with
    nameable := hname
    manifestFits := hmanifest
    statsFits := hstats
    fits := fun name hmem => by rw [hnone] at hmem; cases hmem }

/-- A store on the root directory of a disk that holds nothing. -/
theorem Usable.emptyRoot (maxErrors : Int) :
    Usable { directory := ⟨.root, []⟩, maxErrors } {} [] := by
  have hfixed : Usable { directory := ⟨.root, []⟩ } {} [] :=
    .of_bare (by decide) (by decide) ⟨_, rfl⟩ (fun entry hmem => by cases hmem)
      (Disk.nameable_of_ascii (by decide)) ⟨by decide, by decide⟩ ⟨by decide, by decide⟩
  exact hfixed.keeping maxErrors

/-- What a file counts as is within the limits. -/
theorem readable_held (d : Disk) (path : Path) (shape : Shape) :
    Json.Readable Json.maxNesting (held d path shape) := by
  have hempty : Json.Readable Json.maxNesting shape.empty := by
    cases shape with
    | list => exact .arr (by simp)
    | table => exact .obj (by simp)
  unfold held
  split
  · rename_i document hread
    split
    · rcases read_cases d path with ⟨_, h, -⟩ | h | ⟨text, -, -, h⟩
      · cases hread.symm.trans h
      · cases hread.symm.trans h
      · rw [h] at hread
        cases hparse : Json.parse text with
        | error refusal =>
          rw [hparse] at hread
          cases hread
        | ok parsed =>
          rw [hparse] at hread
          cases hread
          exact Json.readable_of_parse hparse
    · exact hempty
  · exact hempty

/-- The entry may stand in the list of a manifest. -/
def Listable (e : ManifestEntry) : Prop := Json.Readable 985 (.obj e)

theorem listable_of_mem {e : ManifestEntry} (h : e ∈ s.entriesIn d) : Listable e := by
  obtain ⟨document, hmem, hentry⟩ := List.mem_filterMap.mp h
  have hheld := readable_held d s.manifestPath .list
  unfold ManifestEntry.ofJson? at hentry
  split at hentry
  · split at hentry
    · obtain rfl := Option.some.inj hentry
      cases hlist : held d s.manifestPath .list with
      | arr items =>
        rw [hlist] at hmem hheld
        cases hheld with
        | arr all => exact all _ hmem
      | _ =>
        rw [hlist] at hmem
        cases hmem
    · cases hentry
  · cases hentry

/-- The document of a list of entries. -/
def manifestDocument (entries : List ManifestEntry) : Json := .arr (entries.map Json.obj)

theorem readable_manifest {entries : List ManifestEntry} (h : ∀ e ∈ entries, Listable e) :
    Json.Readable Json.maxNesting (manifestDocument entries) := by
  refine .arr fun item hitem => ?_
  obtain ⟨e, he, rfl⟩ := List.mem_map.mp hitem
  exact h e he

/-- The entries of a manifest as they are read. -/
def rereadEntries (entries : List ManifestEntry) : List ManifestEntry :=
  (entries.map fun e => (Json.obj e).reread).filterMap ManifestEntry.ofJson?

theorem length_rereadEntries (entries : List ManifestEntry) :
    (rereadEntries entries).length ≤ entries.length := by
  unfold rereadEntries
  refine (List.length_filterMap_le _ _).trans ?_
  rw [List.length_map]

/-- **A manifest that has been saved is read again**, and is not nested too deeply. -/
theorem Usable.saved_manifest {entries : List ManifestEntry} (h : Usable s d loc)
    (he : ∀ e ∈ entries, Listable e)
    (hs : Saved s loc manifestName (manifestDocument entries) d d') :
    ¬ TooDeep d' s.manifestPath ∧ s.entriesIn d' = rereadEntries entries := by
  obtain ⟨hn, hup⟩ := manifestName_plain
  have husable := h.saved hs hn hup
  obtain ⟨mode, hnode⟩ := hs.self h.manifestFits
  have hread : read d' s.manifestPath = .ok (some (manifestDocument entries).reread) :=
    husable.read_file hn hup h.manifestFits h.nameable_manifest (readable_manifest he) hnode
  refine ⟨not_tooDeep hread, ?_⟩
  have hreread : (manifestDocument entries).reread =
      .arr (entries.map fun e => (Json.obj e).reread) := by
    rw [manifestDocument, Json.reread, Json.rereadItems_eq, List.map_map]
    rfl
  have hheld : held d' s.manifestPath .list = (manifestDocument entries).reread :=
    held_of_read hread (by rw [hreread]; rfl)
  unfold entriesIn rereadEntries
  rw [hheld, hreread]
  rfl

/-! ## 2. Making the record -/

/-- The time stamp is one that the calendar has, and if it is a floating-point number, it is one of
the format. -/
structure Accepted (stamp : Json) : Prop where
  dated : Moment.Dated stamp
  canonical : ∀ x, stamp = .real x → x.Canonical

/-- A whole number that the calendar has. -/
theorem accepted_int {n : Int} {moment : Moment} (h : Moment.ofStamp (.int n) = .ok moment) :
    Accepted (.int n) :=
  ⟨Moment.ofStamp_ok_iff.mp ⟨moment, h⟩, fun x hx => by cases hx⟩

theorem dated_int {n : Int} (h : Moment.Dated (.int n)) : n.natAbs < 10 ^ 17 := by
  obtain ⟨t, ht, hlow, hhigh⟩ := h
  cases ht
  unfold Moment.firstSecond at hlow
  unfold Moment.lastSecond at hhigh
  omega

theorem pow_seventeen_lt : 10 ^ 17 < 10 ^ Json.maxDigits :=
  Nat.pow_lt_pow_right (by decide) (by decide)

theorem Accepted.readable (h : Accepted stamp) (depth : Nat) : Json.Readable depth stamp := by
  cases stamp with
  | null => exact .null
  | bool b => exact .bool b
  | int n => exact .int ((dated_int h.dated).trans pow_seventeen_lt)
  | real x => exact .real (h.canonical x rfl)
  | str t => exact .str t
  | arr items =>
    obtain ⟨t, ht, -⟩ := h.dated
    cases ht
  | obj members =>
    obtain ⟨t, ht, -⟩ := h.dated
    cases ht

/-- The record that is made of a failure on a host. -/
def recordOf (host : Host) (fault : Fault) (report : Report) (message : String) : ErrorRecord where
  timestamp := host.clock.read.1
  errorId := .str (idOf (host.recordsTaken + 1))
  operation := .str report.operation
  resultKind := .str report.resultKind
  errorType := .str fault.name
  errorMessage := .str message
  backend := Json.ofText? report.backend
  className := Json.ofText? report.className
  toolRoot := Json.ofText? report.toolRoot
  toolOutput := Json.ofText? (report.toolOutput.filter (· != ""))
  traceback := Json.ofText? report.traceback

/-- The host after a time stamp and an id have been taken. -/
def drawn (host : Host) : Host :=
  { host with clock := host.clock.read.2, recordsTaken := host.recordsTaken + 1 }

theorem makeRecord_exec (report : Report) {message : String} (h : fault.tell = .ok message) :
    (makeRecord fault report).exec host = (.ok (recordOf host fault report message), drawn host) := by
  unfold makeRecord
  rw [Run.exec_bind_ok (readClock_exec host), Run.exec_bind_ok (freshId_exec _), h]
  rfl

theorem makeRecord_fails_iff :
    (makeRecord fault report).FailsAt host ↔ ∃ trouble, fault.tell = .error trouble := by
  cases h : fault.tell with
  | ok message =>
    constructor
    · rintro ⟨_, hfails⟩
      rw [makeRecord_exec report h] at hfails
      cases hfails
    · rintro ⟨_, hno⟩
      cases hno
  | error trouble =>
    refine ⟨fun _ => ⟨trouble, rfl⟩, fun _ => ⟨trouble, ?_⟩⟩
    unfold makeRecord
    rw [Run.exec_bind_ok (readClock_exec host), Run.exec_bind_ok (freshId_exec _), h]
    rfl

theorem readable_ofText? (depth : Nat) (text : Option String) :
    Json.Readable depth (Json.ofText? text) := by
  cases text with
  | none => exact .null
  | some t => exact .str t

/-- The document of a record, and the entry for it in the manifest, are within the limits. -/
theorem readable_record (ha : Accepted host.clock.read.1) (message : String) (depth : Nat) :
    Json.Readable (depth + 1) (.obj (recordOf host fault report message).members) := by
  have hstamp := ha.readable depth
  refine .obj fun member hmember => ?_
  simp only [ErrorRecord.members, recordOf, List.mem_cons, List.not_mem_nil, or_false] at hmember
  rcases hmember with rfl | rfl | rfl | rfl | rfl | rfl | rfl | rfl | rfl | rfl | rfl
  · exact hstamp
  · exact .str _
  · exact .str _
  · exact .str _
  · exact .str _
  · exact .str _
  · exact readable_ofText? _ _
  · exact readable_ofText? _ _
  · exact readable_ofText? _ _
  · exact readable_ofText? _ _
  · exact readable_ofText? _ _

theorem listable_ofRecord (ha : Accepted host.clock.read.1) (message text : String) :
    Listable (ManifestEntry.ofRecord (recordOf host fault report message) text) := by
  have hstamp := ha.readable 984
  refine .obj fun member hmember => ?_
  simp only [ManifestEntry.ofRecord, recordOf, List.mem_cons, List.not_mem_nil, or_false] at hmember
  rcases hmember with rfl | rfl | rfl | rfl | rfl | rfl | rfl
  · exact .str _
  · exact hstamp
  · exact .str _
  · exact .str _
  · exact .str _
  · exact .str _
  · exact readable_ofText? _ _

/-- The name of the file of a record. -/
def recordName (moment : Moment) (operation : String) (n : Nat) : String :=
  moment.compact ++ "_" ++ operation ++ "_" ++ idOf n ++ ".json"

/-- The operation may stand in the name of a file. -/
structure NamesFile (operation : String) : Prop where
  slash : '/' ∉ operation.toList
  nameable : Nameable operation

theorem nameable_nat (n : Nat) : Nameable (toString n) := by
  refine Disk.nameable_of_ascii fun c hc => ?_
  rw [toList_toString] at hc
  have hdigit : Text.isDigit c = true := allDigits_toDigits n c hc
  simp only [Text.isDigit, Bool.and_eq_true, decide_eq_true_eq, Char.le_def] at hdigit
  have hlow : '0'.toNat ≤ c.toNat := UInt32.le_iff_toNat_le.mp hdigit.1
  have hhigh : c.toNat ≤ '9'.toNat := UInt32.le_iff_toNat_le.mp hdigit.2
  simp only [Char.reduceToNat] at hlow hhigh
  omega

theorem nameable_int (n : Int) : Nameable (toString n) := by
  cases n with
  | ofNat n => exact nameable_nat n
  | negSucc n =>
    have htext : toString (Int.negSucc n) = "-" ++ toString (n + 1) := rfl
    rw [htext]
    exact Disk.Nameable.append (Disk.nameable_of_ascii (by decide)) (nameable_nat (n + 1))

theorem nameable_two (n : Nat) : Nameable (Moment.two n) := by
  unfold Moment.two
  split
  · exact Disk.Nameable.append (Disk.nameable_of_ascii (by decide)) (nameable_nat n)
  · exact nameable_nat n

theorem nameable_compact (moment : Moment) : Nameable moment.compact := by
  unfold Moment.compact
  have hbreak : Nameable "_" := Disk.nameable_of_ascii (by decide)
  exact (((((nameable_int _).append (nameable_two _)).append (nameable_two _)).append hbreak).append
    (nameable_two _)).append (nameable_two _) |>.append (nameable_two _)

/-- What holds of the sixteen digits holds of all characters of a number. -/
theorem forall_hexDigits {P : Char → Prop} (h : ∀ k : Fin 16, P (Text.hexDigit k.val)) :
    ∀ {width n : Nat}, ∀ c ∈ Text.hexDigits width n, P c := by
  intro width
  induction width with
  | zero =>
    intro n c hc
    cases hc
  | succ width ih =>
    intro n c hc
    rcases List.mem_append.mp hc with hc | hc
    · exact ih c hc
    · rw [List.mem_singleton.mp hc]
      exact h ⟨n % 16, Nat.mod_lt _ (by decide)⟩

theorem idOf_toList (n : Nat) : (idOf n).toList = "disasm_".toList ++ Text.hexDigits 16 n := by
  rw [idOf, String.toList_append]
  exact congrArg _ String.toList_ofList

theorem forall_idOf {P : Char → Prop} (hstart : ∀ c ∈ "disasm_".toList, P c)
    (h : ∀ k : Fin 16, P (Text.hexDigit k.val)) (n : Nat) : ∀ c ∈ (idOf n).toList, P c := by
  rw [idOf_toList]
  exact List.forall_mem_append.mpr ⟨hstart, forall_hexDigits h⟩

theorem idOf_ascii (n : Nat) : ∀ c ∈ (idOf n).toList, 0 < c.toNat ∧ c.toNat < 0x80 :=
  forall_idOf (by decide) (by decide) n

theorem nameable_idOf (n : Nat) : Nameable (idOf n) := Disk.nameable_of_ascii (idOf_ascii n)

theorem nameable_recordName (moment : Moment) {operation : String} (ho : Nameable operation)
    (n : Nat) : Nameable (recordName moment operation n) := by
  have hbreak : Nameable "_" := Disk.nameable_of_ascii (by decide)
  have hsuffix : Nameable ".json" := Disk.nameable_of_ascii (by decide)
  unfold recordName
  exact ((((nameable_compact moment).append hbreak).append ho).append hbreak).append
    (nameable_idOf n) |>.append hsuffix

/-- The file of a record is neither the manifest nor the statistics. -/
theorem recordName_ne (moment : Moment) (operation : String) (n : Nat) :
    recordName moment operation n ≠ manifestName ∧ recordName moment operation n ≠ statsName := by
  have hmem : '_' ∈ (recordName moment operation n).toList := by
    simp [recordName, String.toList_append]
  constructor
  · intro he
    rw [he] at hmem
    exact absurd hmem (by decide)
  · intro he
    rw [he] at hmem
    exact absurd hmem (by decide)

theorem recordPath_eq {moment : Moment} (h : Moment.ofStamp stamp = .ok moment)
    (operation : String) (n : Nat) :
    s.recordPath stamp operation (idOf n) =
      .ok (s.directory.child (recordName moment operation n)) := by
  unfold recordPath
  rw [h]
  rfl

/-- The record of a failure can be saved. -/
theorem Usable.saveRecord_exec (h : Usable s host.disk loc) (fault : Fault)
    (ha : Accepted host.clock.read.1) (ho : NamesFile report.operation) (message : String)
    (moment : Moment) :
    ∃ disk after, (save (s.directory.child (recordName moment report.operation
        (host.recordsTaken + 1))) (.obj (recordOf host fault report message).members)).exec
          (drawn host) = (.ok (), after) ∧
      Saved s loc (recordName moment report.operation (host.recordsTaken + 1))
        (.obj (recordOf host fault report message).members) host.disk disk ∧
      Became (drawn host) disk after := by
  obtain ⟨hn, hup⟩ := recordName_plain moment ho.slash (host.recordsTaken + 1)
  have hname : Nameable (s.directory.child (recordName moment report.operation
      (host.recordsTaken + 1))).text :=
    Disk.nameable_child h.nameable hn (nameable_recordName moment ho.nameable _)
  have hw : (Json.obj (recordOf host fault report message).members).isWritable = true :=
    (readable_record ha message 0).isWritable
  have hsettled : Settled s (drawn host).disk loc := h.toSettled
  exact hsettled.save_exec hn hup hname hw

/-! ## 3. The manifest -/

/-- **Saving the manifest never fails**, where its entries are within the limits. -/
theorem Usable.saveManifest_exec (h : Usable s host.disk loc) {entries : List ManifestEntry}
    (he : ∀ e ∈ entries, Listable e) :
    ∃ disk after, (s.saveManifest entries).exec host = (.ok (), after) ∧
      Saved s loc manifestName (manifestDocument entries) host.disk disk ∧
      Became host disk after :=
  h.save_exec manifestName_plain.1 manifestName_plain.2 h.nameable_manifest
    (readable_manifest he).isWritable

theorem listable_newestFirst {entries : List ManifestEntry} (he : ∀ e ∈ entries, Listable e) :
    ∀ e ∈ ManifestEntry.newestFirst entries, Listable e := fun e hm =>
  he e ((Sorting.sortFalling_perm _ _ _).subset hm)

/-- Saving under another name leaves the manifest. -/
theorem Usable.manifest_kept {document : Json} (h : Usable s d loc)
    (hs : Saved s loc name document d d') (hn : Path.IsPlain name) (hup : name ≠ "..")
    (hne : name ≠ manifestName) :
    (TooDeep d' s.manifestPath ↔ TooDeep d s.manifestPath) ∧ s.entriesIn d' = s.entriesIn d := by
  have hsettled := hs.settled h.toSettled hn hup
  have hnode := hs.others hne.symm
  obtain ⟨hplain, hplainUp⟩ := manifestName_plain
  refine ⟨h.tooDeep_congr hsettled hplain hplainUp hnode, ?_⟩
  unfold entriesIn manifestPath
  rw [h.held_congr hsettled hplain hplainUp hnode]

/-- Saving under another name leaves the statistics. -/
theorem Usable.stats_kept {document : Json} (h : Usable s d loc)
    (hs : Saved s loc name document d d') (hn : Path.IsPlain name) (hup : name ≠ "..")
    (hne : name ≠ statsName) :
    (TooDeep d' s.statsPath ↔ TooDeep d s.statsPath) ∧ s.statsIn d' = s.statsIn d := by
  have hsettled := hs.settled h.toSettled hn hup
  have hnode := hs.others hne.symm
  obtain ⟨hplain, hplainUp⟩ := statsName_plain
  refine ⟨h.tooDeep_congr hsettled hplain hplainUp hnode, ?_⟩
  unfold statsIn statsPath
  rw [h.held_congr hsettled hplain hplainUp hnode]

/-! ## 4. Pruning -/

/-- How many of some entries are beyond the number that the store keeps. -/
def excess (s : ErrorStore) (entries : List ManifestEntry) : Nat :=
  ((entries.length : Int) - s.maxErrors).toNat

/-- The entries that are removed from a manifest. -/
def pruned (s : ErrorStore) (entries : List ManifestEntry) : List ManifestEntry :=
  (ManifestEntry.oldestFirst entries).take (s.excess entries)

/-- The entries that are left of a manifest, from the newest to the oldest. -/
def kept (s : ErrorStore) (entries : List ManifestEntry) : List ManifestEntry :=
  ManifestEntry.newestFirst ((ManifestEntry.oldestFirst entries).drop (s.excess entries))

theorem kept_subset (s : ErrorStore) (entries : List ManifestEntry) : s.kept entries ⊆ entries :=
  fun _ he => (Sorting.sort_perm _ _ _).subset
    (List.mem_of_mem_drop ((Sorting.sortFalling_perm _ _ _).subset he))

theorem length_kept (s : ErrorStore) (entries : List ManifestEntry) :
    (s.kept entries).length = entries.length - s.excess entries := by
  unfold kept
  rw [ManifestEntry.newestFirst, (Sorting.sortFalling_perm _ _ _).length_eq, List.length_drop,
    ManifestEntry.oldestFirst, (Sorting.sort_perm _ _ _).length_eq]

theorem pruned_eq_nil {entries : List ManifestEntry} (h : (entries.length : Int) ≤ s.maxErrors) :
    s.pruned entries = [] := by
  have hnone : s.excess entries = 0 := by
    unfold excess
    omega
  rw [pruned, hnone, List.take_zero]

/-- What pruning leaves of a store with the given entries in its manifest: nothing changes if they are
few; otherwise the files of the oldest go, and the manifest keeps the others. -/
inductive Pruned (s : ErrorStore) (loc : Location) (entries : List ManifestEntry) (d : Disk) :
    Disk → Prop where
  | few (few : (entries.length : Int) ≤ s.maxErrors) : Pruned s loc entries d d
  | many {names : List String} {middle d' : Disk} (many : s.maxErrors < entries.length)
      (left : Left s loc names d middle)
      (gone : ∀ name, name ∈ names ↔ name ∈ d.tree.children loc ∧
        ∃ e ∈ s.pruned entries, describes e.id.plainText name = true)
      (saved : Saved s loc manifestName (manifestDocument (s.kept entries)) middle d') :
      Pruned s loc entries d d'

theorem Pruned.usable {entries : List ManifestEntry} (hp : Pruned s loc entries d d')
    (h : Usable s d loc) : Usable s d' loc := by
  cases hp with
  | few _ => exact h
  | many _ left _ saved => exact (h.left left).saved saved manifestName_plain.1 manifestName_plain.2

/-- **After pruning the manifest has no more entries than it may have.** -/
theorem Usable.pruned_bounded (h : Usable s d loc) (hp : Pruned s loc (s.entriesIn d) d d') :
    ((s.entriesIn d').length : Int) ≤ max s.maxErrors 0 := by
  cases hp with
  | few few => exact few.trans (Int.le_max_left _ _)
  | many many left gone saved =>
    have hlistable : ∀ e ∈ s.kept (s.entriesIn d), Listable e := fun e he =>
      listable_of_mem (kept_subset s _ he)
    obtain ⟨-, hentries⟩ := (h.left left).saved_manifest hlistable saved
    have hlength := length_rereadEntries (s.kept (s.entriesIn d))
    rw [length_kept] at hlength
    unfold excess at hlength
    rw [hentries]
    omega

theorem prune_eq (s : ErrorStore) : s.prune = (do
    let entries ← s.manifest
    if (entries.length : Int) ≤ s.maxErrors then return
    s.deleteRecords (s.pruned entries)
    s.saveManifest (s.kept entries)) := rfl

/-- Pruning a store whose manifest can be read: what it does comes down to deleting the files of the
oldest records and saving the manifest. -/
theorem prune_step (hdeep : ¬ TooDeep host.disk s.manifestPath) :
    ∃ log, s.prune.exec host = (do
      if (((s.entriesIn host.disk).length : Int) ≤ s.maxErrors) then return
      s.deleteRecords (s.pruned (s.entriesIn host.disk))
      s.saveManifest (s.kept (s.entriesIn host.disk)) : Run Unit).exec { host with log } := by
  obtain ⟨_, hmanifest, log, rfl⟩ := s.manifest_exec hdeep rfl
  refine ⟨log, ?_⟩
  rw [prune_eq, Run.exec_bind_ok hmanifest]

/-- **Pruning** leaves the newest entries, unless the id of an old one is refused. -/
theorem Usable.prune_exec (h : Usable s host.disk loc)
    (hdeep : ¬ TooDeep host.disk s.manifestPath)
    (hids : ∀ e ∈ s.pruned (s.entriesIn host.disk), ¬ Refused e.id.plainText) :
    ∃ disk after, s.prune.exec host = (.ok (), after) ∧
      Pruned s loc (s.entriesIn host.disk) host.disk disk ∧ Became host disk after := by
  obtain ⟨log, hstep⟩ := prune_step hdeep
  have hlogged : Became host host.disk { host with log } := ⟨log, rfl⟩
  by_cases hfew : ((s.entriesIn host.disk).length : Int) ≤ s.maxErrors
  · refine ⟨host.disk, { host with log }, ?_, .few hfew, hlogged⟩
    rw [hstep, if_pos hfew]
    rfl
  · have hsettled : Settled s ({ host with log } : Host).disk loc := h.toSettled
    obtain ⟨names, middle, after, hdelete, hleft, hbecame, hgone⟩ :=
      hsettled.deleteRecords_exec h.nameable h.fits hids
    have husable : Usable s after.disk loc := hbecame.disk ▸ h.left hleft
    obtain ⟨disk, last, hsave, hsaved, hbecame'⟩ := husable.saveManifest_exec
      (fun e he => listable_of_mem (kept_subset s (s.entriesIn host.disk) he))
    rw [hbecame.disk] at hsaved
    refine ⟨disk, last, ?_, .many (Int.not_le.mp hfew) hleft hgone hsaved,
      (hlogged.trans hbecame).trans hbecame'⟩
    rw [hstep, if_neg hfew, Run.exec_bind_ok hdelete, hsave]

/-- **Pruning fails exactly if the manifest is nested too deeply or the id of an old entry is
refused.** -/
theorem Usable.prune_fails_iff (h : Usable s host.disk loc) :
    s.prune.FailsAt host ↔ TooDeep host.disk s.manifestPath ∨
      ∃ e ∈ s.pruned (s.entriesIn host.disk), Refused e.id.plainText := by
  by_cases hdeep : TooDeep host.disk s.manifestPath
  · refine iff_of_true ?_ (.inl hdeep)
    rw [prune_eq, Run.FailsAt.bind_iff]
    exact .inl (s.manifest_fails_iff.mpr hdeep)
  by_cases hids : ∃ e ∈ s.pruned (s.entriesIn host.disk), Refused e.id.plainText
  · refine iff_of_true ?_ (.inr hids)
    have hmany : ¬ ((s.entriesIn host.disk).length : Int) ≤ s.maxErrors := by
      intro hfew
      obtain ⟨e, he, -⟩ := hids
      rw [pruned_eq_nil hfew] at he
      cases he
    obtain ⟨log, hstep⟩ := prune_step hdeep
    unfold Run.FailsAt
    rw [hstep, if_neg hmany]
    have hsettled : Settled s ({ host with log } : Host).disk loc := h.toSettled
    exact Run.FailsAt.bind_iff.mpr
      (.inl ((hsettled.deleteRecords_fails_iff h.nameable h.fits).mpr hids))
  · refine iff_of_false ?_ fun hno => hno.elim hdeep hids
    rintro ⟨fault, hfails⟩
    obtain ⟨disk, after, hexec, -⟩ :=
      h.prune_exec hdeep fun e he hr => hids ⟨e, he, hr⟩
    rw [hexec] at hfails
    cases hfails

end ErrorStore

end Dissect
