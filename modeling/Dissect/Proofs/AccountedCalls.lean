/-
# Statistics of whole runs

In a directory that was empty when a store was opened in it, the statistics account for the calls that
were to record failures since the store was last cleared (`Ledger.accounts`), whatever number of records
is kept, however often old ones are pruned and the store is opened again:

* the total is the number of these calls;
* each of the three tables tells for every key how many calls had it, and sums up to the total;
* the last time stamp is that of the last call.

Calls count here that get as far as being counted (`Call.isCounted`), and these are the calls that
return.  A call fails, and leaves the store as it is, exactly if its failure has no text, or its
operation cannot stand in a path.

One step at a time, the store keeps an account (`Account`): its manifest lists records, its statistics
account for the calls, and neither is beyond what can be read.
-/
import Dissect.Proofs.Books
import Dissect.Proofs.Histograms

namespace Dissect

open Files (Disk Location)

namespace ErrorStore

variable {s : ErrorStore} {d middle d' : Disk} {loc : Location} {name : String} {document : Json}
  {host start : Host} {fault : Fault} {report : Report} {message : String} {calls : List Call}
  {directory : Path} {taken : ℕ}

/-! ## 1. Directories with both books -/

/-- The manifest and the statistics are among the names, and no name is there twice. -/
structure ListsBooks (names : List String) : Prop where
  nodup : names.Nodup
  manifest : manifestName ∈ names
  stats : statsName ∈ names

/-- The store can be used, and its directory lists the manifest and the statistics. -/
structure Equipped (s : ErrorStore) (d : Disk) (loc : Location) : Prop extends Usable s d loc where
  books : ListsBooks (d.tree.children loc)

/-- Saving adds the name to those in the directory, or leaves these as they are. -/
theorem Saved.listing (hs : Saved s loc name document d d') :
    d'.tree.children loc = d.tree.children loc ∨
      name ∉ d.tree.children loc ∧ d'.tree.children loc = d.tree.children loc ++ [name] := by
  cases hs with
  | refused _ => exact .inl rfl
  | written _ mode =>
    rw [Files.Tree.children_set]
    split
    · exact .inl rfl
    · rename_i hnew
      exact .inr ⟨hnew, rfl⟩

namespace Equipped

theorem saved (h : Equipped s d loc) (hs : Saved s loc name document d d')
    (hn : Path.IsPlain name) (hup : name ≠ "..") : Equipped s d' loc := by
  refine ⟨h.toUsable.saved hs hn hup, ?_⟩
  obtain ⟨hnodup, hmanifest, hstats⟩ := h.books
  rcases hs.listing with hsame | ⟨hnew, hmore⟩
  · rw [hsame]
    exact ⟨hnodup, hmanifest, hstats⟩
  · rw [hmore]
    refine ⟨List.nodup_append.mpr ⟨hnodup, List.nodup_singleton name, fun a ha b hb heq => ?_⟩,
      List.mem_append_left _ hmanifest, List.mem_append_left _ hstats⟩
    exact hnew (List.mem_singleton.mp hb ▸ heq ▸ ha)

theorem left {names : List String} (h : Equipped s d loc) (hl : Left s loc names d d')
    (hmanifest : manifestName ∉ names) (hstats : statsName ∉ names) : Equipped s d' loc := by
  refine ⟨h.toUsable.left hl, ?_⟩
  rw [hl.children]
  exact ⟨h.books.nodup.filter _, List.mem_filter.mpr ⟨h.books.manifest, by simpa using hmanifest⟩,
    List.mem_filter.mpr ⟨h.books.stats, by simpa using hstats⟩⟩

theorem pruned {entries : List ManifestEntry} (h : Equipped s d loc)
    (hp : Pruned s loc entries d d') : Equipped s d' loc := by
  cases hp with
  | few _ => exact h
  | many _ left gone saved =>
    exact (h.left left (not_mem_pruned gone (by decide)) (not_mem_pruned gone (by decide))).saved saved
      manifestName_plain.1 manifestName_plain.2

theorem entered (h : Equipped s host.disk loc) (he : Entered s loc host fault report message d')
    (ho : NamesFile report.operation) : Equipped s d' loc := by
  obtain ⟨-, hrecord, hmanifest⟩ := he
  obtain ⟨hn, hup⟩ := recordName_plain _ ho.slash _
  exact (h.saved hrecord hn hup).saved hmanifest manifestName_plain.1 manifestName_plain.2

/-- How many records the store keeps has no part in it. -/
theorem keeping (h : Equipped s d loc) (maxErrors : ℤ) : Equipped { s with maxErrors } d loc :=
  ⟨h.toUsable.keeping maxErrors, h.books⟩

end Equipped

/-! ## 2. Accounts -/

/-- **The store keeps an account of some calls**: the manifest lists records, the statistics account for
the calls, and both can be read. -/
structure Account (s : ErrorStore) (d : Disk) (loc : Location) (taken : ℕ) (calls : List Call) :
    Prop where
  equipped : Equipped s d loc
  manifest : ¬ TooDeep d s.manifestPath
  lists : ∃ listed, Lists listed (s.entriesIn d)
  stats : ¬ TooDeep d s.statsPath
  tally : Tally calls.length calls.length (s.statsIn d)
  reckons : Reckons calls (s.statsIn d)
  few : calls.length ≤ taken

/-- The account of a store whose two books have just been begun. -/
theorem Usable.fresh_account (h : Usable s d loc) (hm : Saved s loc manifestName (.arr []) d middle)
    (hs : Saved s loc statsName (.obj []) middle d') (hb : ListsBooks (d'.tree.children loc))
    (taken : ℕ) : Account s d' loc taken [] := by
  obtain ⟨husable, ⟨hdeep, hentries⟩, hdeep', hnone⟩ := h.saved_empty hm hs
  exact {
    equipped := ⟨husable, hb⟩
    manifest := hdeep
    lists := ⟨[], hentries ▸ .nil⟩
    stats := hdeep'
    tally := hnone ▸ .empty
    reckons := hnone ▸ .nil
    few := Nat.zero_le _ }

namespace Account

theorem keeping (h : Account s d loc taken calls) (maxErrors : ℤ) :
    Account { s with maxErrors } d loc taken calls :=
  { h with equipped := h.equipped.keeping maxErrors }

theorem mono {more : ℕ} (h : Account s d loc taken calls) (hle : taken ≤ more) :
    Account s d loc more calls :=
  { h with few := h.few.trans hle }

/-- The statistics are read. -/
theorem stats_exec (h : Account s host.disk loc taken calls) :
    ∃ after, s.stats.exec host = (.ok (s.statsIn host.disk), after) := by
  obtain ⟨after, hexec, -⟩ := s.stats_exec h.stats rfl
  exact ⟨after, hexec⟩

/-- What pruning leaves: the same statistics. -/
theorem pruned (h : Account s d loc taken calls) (hp : Pruned s loc (s.entriesIn d) d d') :
    Account s d' loc taken calls ∧ s.statsIn d' = s.statsIn d := by
  obtain ⟨listed, hlists⟩ := h.lists
  obtain ⟨hmanifest, hremaining⟩ := h.equipped.toUsable.pruned_lists h.manifest hlists hp
  obtain ⟨hdeep, hstats⟩ := h.equipped.toUsable.stats_pruned hp
  exact ⟨{
    equipped := h.equipped.pruned hp
    manifest := hmanifest
    lists := ⟨_, hremaining⟩
    stats := fun hd => h.stats (hdeep.mp hd)
    tally := hstats ▸ h.tally
    reckons := hstats ▸ h.reckons
    few := h.few }, hstats⟩

/-- **Pruning keeps the account**, and leaves the statistics as they are. -/
theorem prune (h : Account s host.disk loc taken calls) :
    ∃ disk after, s.prune.exec host = (.ok (), after) ∧ Became host disk after ∧
      Account s disk loc taken calls ∧ s.statsIn disk = s.statsIn host.disk := by
  obtain ⟨listed, hlists⟩ := h.lists
  have hids : ∀ e ∈ s.pruned (s.entriesIn host.disk), ¬ Refused e.id.plainText := fun e he => by
    obtain ⟨r, -, hshown⟩ := (hlists.pruned s).mem_right he
    obtain ⟨n, hn⟩ := hshown.made
    rw [hshown.id, hn.id]
    exact not_refused_idOf n
  obtain ⟨disk, after, hexec, hpruned, hbecame⟩ :=
    h.equipped.toUsable.prune_exec h.manifest hids
  exact ⟨disk, after, hexec, hbecame, h.pruned hpruned⟩

/-- **Recording adds the call to the account**, and returns the record. -/
theorem record (h : Account s host.disk loc host.recordsTaken calls)
    (ho : NamesFile report.operation) (hnow : Accepted host.clock.read.1)
    (hlater : Accepted host.clock.read.2.read.1) (hleft : host.recordsTaken + 1 < 16 ^ 16)
    (ht : fault.tell = .ok message) :
    ∃ disk after,
      (s.record fault report).exec host = (.ok (recordOf host fault report message), after) ∧
      Became { drawn host with clock := host.clock.read.2.read.2 } disk after ∧
      Account s disk loc (host.recordsTaken + 1) (calls ++ [⟨fault, report, host.clock.read.1⟩]) := by
  obtain ⟨listed, hlists⟩ := h.lists
  have hfew : calls.length < 16 ^ 16 := Nat.lt_of_le_of_lt h.few (Nat.lt_of_succ_lt hleft)
  have hclear := hlists.not_obstructed h.manifest h.stats h.tally hfew ho hnow ht
  obtain ⟨message', entered, stats, counted, disk, after, ht', hexec, hentered, hall, hstats,
    hentries, hpruned, hbecame⟩ := h.equipped.toUsable.record_exec ho hnow hlater hclear
  cases ht.symm.trans ht'
  have hequipped := h.equipped.entered hentered ho
  obtain ⟨hn, hup⟩ := statsName_plain
  obtain ⟨hdeep, -⟩ := hentered.manifest_read h.equipped.toUsable ho hnow
  have htally := h.tally.counted (Nat.lt_of_le_of_lt (Nat.succ_le_succ h.few) hleft) hnow hlater hall
  obtain ⟨hread, hstatsIn⟩ := hequipped.toUsable.saved_stats htally hstats
  obtain ⟨-, hlisting⟩ := hlists.listing ho hnow ht
  have haccount : Account s counted loc (host.recordsTaken + 1)
      (calls ++ [⟨fault, report, host.clock.read.1⟩]) := {
    equipped := hequipped.saved hstats hn hup
    manifest := by
      rw [(hequipped.toUsable.manifest_kept hstats hn hup (by decide)).1]
      exact hdeep
    lists := ⟨_, hentries ▸ hlisting.reread⟩
    stats := hread
    tally := by
      rw [hstatsIn, List.length_append, List.length_singleton]
      exact htally.reread.2
    reckons := by
      rw [hstatsIn]
      exact h.reckons.counted hnow.dated.isFinite hall
    few := by
      rw [List.length_append, List.length_singleton]
      exact Nat.succ_le_succ h.few }
  exact ⟨disk, after, hexec, hbecame, (haccount.pruned (hentries ▸ hpruned)).1⟩

/-- **Opening the store again** leaves it as it is. -/
theorem reopen (h : Account s host.disk loc taken calls) :
    ∃ after, (openAt (some s.directory) s.maxErrors).exec host = (.ok s, after) ∧
      Became host host.disk after := by
  obtain ⟨middle, disk, after, hexec, hbecame, hmiddle, hdisk⟩ := h.equipped.toUsable.open_exec
  rw [if_pos h.equipped.books.manifest] at hmiddle
  rw [hmiddle, if_pos h.equipped.books.stats] at hdisk
  exact ⟨after, hexec, hdisk ▸ hbecame⟩

/-- **Clearing begins a new account.** -/
theorem clear (h : Account s host.disk loc taken calls) :
    ∃ count disk after, s.clear.exec host = (.ok count, after) ∧ Became host disk after ∧
      Account s disk loc taken [] := by
  obtain ⟨cleared, listed, disk, after, hexec, hbecame, hleft, hmanifest, hstats⟩ :=
    h.equipped.toUsable.clear_exec h.equipped.books.nodup
  have hcleared := h.equipped.left hleft (by simp [recordNames]) (by simp [recordNames])
  have hdisk := (hcleared.saved hmanifest manifestName_plain.1 manifestName_plain.2).saved hstats
    statsName_plain.1 statsName_plain.2
  exact ⟨_, disk, after, hexec, hbecame, hcleared.toUsable.fresh_account hmanifest hstats
    hdisk.books taken⟩

end Account

/-! ## 3. Runs -/

/-- The hosts after a store was opened in a directory on a first one, failures were recorded, old records
pruned, all records cleared and stores opened again, each of which keeps any number of records, with the
calls that were to record failures since the store was last cleared. -/
inductive Ledger (directory : Path) (start : Host) : List Call → Host → Prop where
  | opened (maxErrors : ℤ) :
      Ledger directory start [] ((openAt (some directory) maxErrors).exec start).2
  | reopened {calls : List Call} {host : Host} (h : Ledger directory start calls host)
      (maxErrors : ℤ) :
      Ledger directory start calls ((openAt (some directory) maxErrors).exec host).2
  | recorded {calls : List Call} {host : Host} (h : Ledger directory start calls host)
      (maxErrors : ℤ) (fault : Fault) (report : Report) (slash : '/' ∉ report.operation.toList)
      (now : Accepted host.clock.read.1) (later : Accepted host.clock.read.2.read.1)
      (idLeft : host.recordsTaken + 1 < 16 ^ 16) :
      Ledger directory start (calls ++ [⟨fault, report, host.clock.read.1⟩])
        ((record { directory, maxErrors } fault report).exec host).2
  | pruned {calls : List Call} {host : Host} (h : Ledger directory start calls host)
      (maxErrors : ℤ) : Ledger directory start calls ((prune { directory, maxErrors }).exec host).2
  | cleared {calls : List Call} {host : Host} (h : Ledger directory start calls host)
      (maxErrors : ℤ) : Ledger directory start [] ((clear { directory, maxErrors }).exec host).2

/-- A call returns and is added to the account, or fails and leaves the store as it was. -/
theorem Account.record_cases (h : Account s host.disk loc host.recordsTaken calls) (fault : Fault)
    (hslash : '/' ∉ report.operation.toList) (hnow : Accepted host.clock.read.1)
    (hlater : Accepted host.clock.read.2.read.1) (hleft : host.recordsTaken + 1 < 16 ^ 16) :
    (Call.isCounted ⟨fault, report, host.clock.read.1⟩ = true ∧ ∃ r after,
      (s.record fault report).exec host = (.ok r, after) ∧
      Account s after.disk loc after.recordsTaken
        (calls ++ [⟨fault, report, host.clock.read.1⟩])) ∨
    (Call.isCounted ⟨fault, report, host.clock.read.1⟩ = false ∧ ∃ trouble,
      (s.record fault report).exec host = (.error trouble, drawn host)) := by
  cases hcounted : Call.isCounted ⟨fault, report, host.clock.read.1⟩ with
  | true =>
    obtain ⟨⟨message, ht⟩, hnameable⟩ := Call.isCounted_iff.mp hcounted
    obtain ⟨disk, after, hexec, ⟨log, rfl⟩, haccount⟩ :=
      h.record ⟨hslash, hnameable⟩ hnow hlater hleft ht
    exact .inl ⟨rfl, _, _, hexec, haccount⟩
  | false =>
    refine .inr ⟨rfl, record_unmade s hslash ?_ hnow⟩
    cases ht : fault.tell with
    | error trouble => exact .inl ⟨trouble, rfl⟩
    | ok message =>
      refine .inr fun hnameable => ?_
      rw [Call.isCounted_iff.mpr ⟨⟨message, ht⟩, hnameable⟩] at hcounted
      cases hcounted

/-- **The store keeps its account at any time.** -/
theorem Ledger.account (h : Ledger s.directory start calls host) (hu : Usable s start.disk loc)
    (hempty : start.disk.tree.children loc = []) :
    Account s host.disk loc host.recordsTaken (calls.filter Call.isCounted) := by
  induction h with
  | opened maxErrors =>
    obtain ⟨middle, disk, after, hexec, ⟨log, rfl⟩, hmiddle, hdisk, hnames⟩ :=
      (hu.keeping maxErrors).open_new hempty
    have hbooks : ListsBooks (disk.tree.children loc) :=
      hnames ▸ ⟨by decide, by decide, by decide⟩
    have hopened := (hu.keeping maxErrors).fresh_account hmiddle hdisk hbooks start.recordsTaken
    rw [hexec]
    exact hopened.keeping s.maxErrors
  | reopened _ maxErrors ih =>
    obtain ⟨after, hexec, ⟨log, rfl⟩⟩ := (ih.keeping maxErrors).reopen
    rw [hexec]
    exact ih
  | recorded _ maxErrors fault report slash now later idLeft ih =>
    rw [List.filter_append]
    rcases (ih.keeping maxErrors).record_cases fault slash now later idLeft with
      ⟨hcounted, r, after, hexec, haccount⟩ | ⟨hcounted, trouble, hexec⟩
    · rw [hexec, List.filter_singleton, hcounted]
      exact haccount.keeping s.maxErrors
    · rw [hexec, List.filter_singleton, hcounted, cond_false, List.append_nil]
      exact ih.mono (Nat.le_succ _)
  | pruned _ maxErrors ih =>
    obtain ⟨disk, after, hexec, ⟨log, rfl⟩, haccount, -⟩ := (ih.keeping maxErrors).prune
    rw [hexec]
    exact haccount.keeping s.maxErrors
  | cleared _ maxErrors ih =>
    obtain ⟨count, disk, after, hexec, ⟨log, rfl⟩, haccount⟩ := (ih.keeping maxErrors).clear
    rw [hexec]
    exact haccount.keeping s.maxErrors

/-- **The statistics account for every call that returns.**  In a directory that was empty when a store
was opened in it, the statistics can be read at any time, and of the calls since the store was last
cleared that returned a record they tell the number, how many had which operation, class of failure
and kind of result, and the time stamp of the last; each of the three tables sums up to the total.  The
table of the kinds of results is told as far as these read back unchanged.  Pruning leaves the
statistics as they are, and a call fails exactly if its failure has no text or its operation cannot
stand in a path. -/
theorem Ledger.accounts (h : Ledger s.directory start calls host) (hu : Usable s start.disk loc)
    (hempty : start.disk.tree.children loc = []) :
    ∃ counted stats after, counted = calls.filter Call.isCounted ∧
      s.stats.exec host = (.ok stats, after) ∧
      (stats.lookup "total_errors").getD (.int 0) = .int counted.length ∧
      (∀ t : Table, (t = .resultKind → t.Faithful counted) →
        (∀ key, countOf stats t.key key = .int ((counted.map t.item).count key)) ∧
        ((membersOf ((stats.lookup t.key).getD .null)).map fun member =>
          member.2.whole?.getD 0).sum = counted.length) ∧
      stats.lookup "last_error_timestamp" = counted.getLast?.map Call.stamp ∧
      (∀ maxErrors, (s.stats.exec ((prune { s with maxErrors }).exec host).2).1 = .ok stats) ∧
      ∀ maxErrors fault report, '/' ∉ report.operation.toList → Accepted host.clock.read.1 →
        Accepted host.clock.read.2.read.1 → host.recordsTaken + 1 < 16 ^ 16 →
          ((record { s with maxErrors } fault report).FailsAt host ↔
            Call.isCounted ⟨fault, report, host.clock.read.1⟩ = false) := by
  have haccount := h.account hu hempty
  obtain ⟨after, hexec⟩ := haccount.stats_exec
  refine ⟨_, _, after, rfl, hexec, haccount.reckons.total, fun t hkinds => ?_,
    haccount.reckons.latest, fun maxErrors => ?_, fun maxErrors fault report hslash hnow hlater hleft => ?_⟩
  · have ht := Table.faithful_of_counted (fun c hc => (List.mem_filter.mp hc).2) hkinds
    refine ⟨haccount.reckons.countOf ht, (haccount.reckons.tables t ht).sum.trans ?_⟩
    rw [List.length_map]
  · obtain ⟨disk, pruned, hprune, ⟨log, rfl⟩, hpruned, hsame⟩ := (haccount.keeping maxErrors).prune
    have hafter : Account { s with maxErrors } ({ host with disk, log } : Host).disk loc
      host.recordsTaken (calls.filter Call.isCounted) := hpruned
    obtain ⟨last, hlast⟩ := hafter.stats_exec
    rw [hprune]
    exact (congrArg Prod.fst hlast).trans (congrArg Except.ok hsame)
  · unfold Run.FailsAt
    rcases (haccount.keeping maxErrors).record_cases fault hslash hnow hlater hleft with
      ⟨hcounted, r, after, hexec, -⟩ | ⟨hcounted, trouble, hexec⟩
    · rw [hexec, hcounted]
      exact iff_of_false (fun ⟨_, hno⟩ => by cases hno) Bool.noConfusion
    · rw [hexec, hcounted]
      exact iff_of_true ⟨trouble, rfl⟩ rfl

/-- Of two calls, one for a failure that has no text, the statistics account for the other. -/
theorem Ledger.accounts_for_told_call :
    let s : ErrorStore := { directory := ⟨.root, []⟩ }
    ∃ start calls host stats after, Ledger s.directory start calls host ∧ calls.length = 2 ∧
      s.stats.exec host = (.ok stats, after) ∧
      (stats.lookup "total_errors").getD (.int 0) = .int 1 ∧
      countOf stats "by_type" "UnicodeEncodeError" = .int 0 ∧
      countOf stats "by_type" "ValueError" = .int 1 ∧
      countOf stats "by_result_kind" "failure" = .int 1 ∧
      stats.lookup "last_error_timestamp" = some (.int 1700000000) := by
  intro s
  let start : Host := { disk := {}, clock := .given (.int 1700000000) [] }
  let untold : Fault :=
    { kind := .unicodeEncodeError,
      args := [.str "ascii", .str "x", .int (-1), .int 0, .str "bad"] }
  let told : Fault := .ofText .valueError "bad magic"
  let report : Report := { operation := "disassemble", resultKind := "failure" }
  have husable : Usable s start.disk [] := .emptyRoot 200
  have hmoment : Moment.ofStamp (.int 1700000000) = .ok ⟨2023, 11, 14, 22, 13, 20⟩ := rfl
  have hnow : Accepted (.int 1700000000) := accepted_int hmoment
  obtain ⟨middle, disk, _, hopen, ⟨log, rfl⟩, -⟩ := husable.open_new rfl
  let opened : Host := { start with disk, log }
  have hslash : '/' ∉ report.operation.toList := by decide
  have hopened : Ledger s.directory start [] opened := by
    have h : Ledger s.directory start [] _ := .opened 200
    rwa [hopen] at h
  have hfirst : Ledger s.directory start [⟨untold, report, .int 1700000000⟩] (drawn opened) := by
    have huntold : ∃ trouble, untold.tell = .error trouble := ⟨_, rfl⟩
    have hopenedNow : Accepted opened.clock.read.1 := hnow
    have h := hopened.recorded 200 untold report hslash hnow hnow (by decide : 0 + 1 < 16 ^ 16)
    obtain ⟨trouble, hexec⟩ := record_unmade s hslash (.inl huntold) hopenedNow
    rwa [hexec] at h
  have hsecond := hfirst.recorded 200 told report hslash hnow hnow (by decide : 1 + 1 < 16 ^ 16)
  obtain ⟨counted, stats, after, hcounted, hexec, htotal, htables, hlatest, -⟩ :=
    hsecond.accounts husable rfl
  have huncounted : Call.isCounted ⟨untold, report, .int 1700000000⟩ = false := rfl
  have htold : Call.isCounted ⟨told, report, .int 1700000000⟩ = true := by decide +kernel
  have hone : counted = [⟨told, report, .int 1700000000⟩] := by
    rw [hcounted, List.filter_append, List.filter_singleton, List.filter_singleton, huncounted]
    exact congrArg (fun kept => cond kept _ _) htold
  subst hone
  have hkinds : Table.resultKind.Faithful [⟨told, report, .int 1700000000⟩] := fun c hc => by
    rw [List.mem_singleton.mp hc]
    exact Json.pairedText_of_ascii (by decide)
  have htypes := (htables .errorType (fun hno => by cases hno)).1
  exact ⟨start, _, _, stats, after, hsecond, rfl, hexec, htotal, htypes "UnicodeEncodeError",
    htypes "ValueError", (htables .resultKind fun _ => hkinds).1 "failure", hlatest⟩

end ErrorStore

end Dissect
