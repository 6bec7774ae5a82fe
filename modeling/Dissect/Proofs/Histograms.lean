/-
# Statistics that account for calls

The statistics count failures in three tables, by operation, by the class of the failure and by the
kind of the result.  They account for some calls (`Reckons`) if they tell how many these are, every
table tells for each key how often it occurs among them (`Tabulates`), and the last time stamp is that
of the last call.  A table then sums up to the number of calls (`Tabulates.sum`).

Counting a call, writing the statistics and reading them again keeps this (`Reckons.counted`).  A table
is read as it was written if its keys are (`Table.Faithful`).  Operations that may stand in a path and
names of classes are such keys; the kind of a result is any text, and one in which the halves of a pair
of code units stand side by side reads back with the pair joined.
-/
import Dissect.Proofs.Tallies

namespace Dissect

/-! ## 1. Keys that read back -/

/-- The first half of a pair stands for no byte of a path. -/
theorem Json.unencodable_of_highUnit? {c : Char} {unit : Nat} (h : highUnit? c = some unit) :
    Files.Disk.isUnencodable c = true := by
  obtain ⟨hlone, hhigh⟩ := highUnit?_some h
  have hstray : Text.strayByteOf? unit = none := by
    unfold Text.isHighUnit at hhigh
    unfold Text.strayByteOf?
    refine if_neg fun hlow => ?_
    simp only [Bool.and_eq_true, decide_eq_true_eq] at hhigh hlow
    omega
  unfold Files.Disk.isUnencodable Text.strayByte?
  rw [hlone, Option.bind_some, hstray]
  rfl

/-- A text that may stand in a path reads back unchanged. -/
theorem Json.pairedText_of_nameable {text : String} (h : Files.Disk.Nameable text) :
    pairedText text = text := by
  refine pairedText_of_no_high fun c hc => Option.eq_none_iff_forall_ne_some.mpr fun unit hhigh => ?_
  have hencodable := (h c hc).1
  rw [Json.unencodable_of_highUnit? hhigh] at hencodable
  cases hencodable

namespace ErrorStore

/-! ## 2. Tables that count -/

/-- The table tells for each of the keys how often it occurs, and for nothing else. -/
structure Tabulates (keys : List String) (table : List (String × Json)) : Prop where
  nodup : (table.map Prod.fst).Nodup
  lookup : ∀ key, table.lookup key = if key ∈ keys then some (.int (keys.count key)) else none

namespace Tabulates

variable {keys : List String} {table : List (String × Json)}

theorem nil : Tabulates [] [] := ⟨List.nodup_nil, fun _ => rfl⟩

/-- The count under a key; a key that is not there counts as zero. -/
theorem count (h : Tabulates keys table) (key : String) :
    (table.lookup key).getD (.int 0) = .int (keys.count key) := by
  rw [h.lookup]
  split
  · rfl
  · rename_i hnot
    rw [List.count_eq_zero_of_not_mem hnot]
    rfl

theorem mem (h : Tabulates keys table) {member : String × Json} (hm : member ∈ table) :
    member.1 ∈ keys ∧ member.2 = .int (keys.count member.1) := by
  obtain ⟨before, after, rfl⟩ := List.append_of_mem hm
  have hnodup := h.nodup
  rw [List.map_append, List.nodup_append] at hnodup
  have hfound : (before ++ member :: after).lookup member.1 = some member.2 := by
    refine List.lookup_eq_some_iff.mpr ⟨before, after, rfl, fun other hother => ?_⟩
    have hne := hnodup.2.2 other.1 (List.mem_map_of_mem hother) member.1 (by simp)
    simpa using hne.symm
  rw [h.lookup] at hfound
  split at hfound
  · exact ⟨‹_›, (Option.some.inj hfound).symm⟩
  · cases hfound

theorem mem_keys (h : Tabulates keys table) (key : String) :
    key ∈ table.map Prod.fst ↔ key ∈ keys := by
  constructor
  · intro hm
    obtain ⟨member, hmember, rfl⟩ := List.mem_map.mp hm
    exact (h.mem hmember).1
  · intro hkey
    have hfound := h.lookup key
    rw [if_pos hkey] at hfound
    exact List.mem_map.mpr ⟨_, Assoc.mem_of_lookup hfound, rfl⟩

/-- **The counts sum up to the number of keys.** -/
theorem sum (h : Tabulates keys table) :
    (table.map fun member => member.2.whole?.getD 0).sum = keys.length := by
  have hcounts : (table.map fun member => member.2.whole?.getD 0) =
      (table.map Prod.fst).map fun key => (keys.count key : ℤ) := by
    rw [List.map_map]
    refine List.map_congr_left fun member hm => ?_
    rw [(h.mem hm).2]
    rfl
  have hperm : (table.map Prod.fst).Perm keys.dedup :=
    (List.perm_ext_iff_of_nodup h.nodup (List.nodup_dedup keys)).mpr fun key =>
      (h.mem_keys key).trans List.mem_dedup.symm
  calc (table.map fun member => member.2.whole?.getD 0).sum
      = (keys.dedup.map fun key => (keys.count key : ℤ)).sum := by
        rw [hcounts, (hperm.map _).sum_eq]
    _ = ((keys.dedup.map fun key => keys.count key).sum : ℕ) := by
        exact ((map_list_sum (Nat.castAddMonoidHom ℤ) _).trans (congrArg List.sum List.map_map)).symm
    _ = keys.length := by rw [List.sum_map_count_dedup_eq_length]

/-- **One more of a key.** -/
theorem add (h : Tabulates keys table) (key : String) :
    Tabulates (keys ++ [key]) (Json.setMember key (.int (keys.count key + 1)) table) := by
  refine ⟨?_, fun other => ?_⟩
  · rw [keys_setMember]
    split
    · exact h.nodup
    · rename_i hnew
      refine List.nodup_append.mpr ⟨h.nodup, List.nodup_singleton key, fun a ha b hb heq => ?_⟩
      exact hnew (List.mem_singleton.mp hb ▸ heq ▸ ha)
  · by_cases hother : other = key
    · subst hother
      rw [Json.lookup_setMember_self, if_pos (List.mem_append_right _ List.mem_cons_self),
        List.count_append, List.count_singleton_self]
      rfl
    · rw [Json.lookup_setMember_of_ne hother, h.lookup, List.count_append,
        List.count_eq_zero_of_not_mem (l := [key]) (by simpa using hother)]
      simp [hother]

/-- A table whose keys read back unchanged does so itself. -/
theorem reread (h : Tabulates keys table) (hkeys : ∀ key ∈ keys, Json.pairedText key = key) :
    (Json.obj table).reread = .obj table := by
  rw [Json.reread, Json.rereadMembers_eq (fun member hm => hkeys _ (h.mem hm).1)
    (by simpa using h.nodup), List.nil_append]
  refine congrArg Json.obj ((List.map_congr_left fun member hm => ?_).trans (List.map_id _))
  obtain ⟨key, value⟩ := member
  have hvalue : value = .int (keys.count key) := (h.mem hm).2
  rw [hvalue]
  rfl

end Tabulates

/-! ## 3. Calls -/

/-- A call that is to record a failure: the failure, what else is told of it, and the time. -/
structure Call where
  fault : Fault
  report : Report
  stamp : Json

/-- The call gets as far as being counted: the failure has a text, and the operation may stand in a
path. -/
def Call.isCounted (c : Call) : Bool :=
  c.fault.tell.isOk && (Files.Disk.pathFault? c.report.operation).isNone

theorem Call.isCounted_iff {c : Call} : c.isCounted = true ↔
    (∃ message, c.fault.tell = .ok message) ∧ Files.Disk.Nameable c.report.operation := by
  unfold isCounted
  rw [Bool.and_eq_true, Option.isNone_iff_eq_none, Files.Disk.pathFault?_none_iff]
  refine and_congr_left fun _ => ?_
  cases c.fault.tell <;> simp [Except.isOk, Except.toBool]

/-- The three tables of the statistics. -/
inductive Table where
  | operation
  | errorType
  | resultKind
deriving DecidableEq

namespace Table

/-- The key of the table in the statistics. -/
def key : Table → String
  | operation => "by_operation"
  | errorType => "by_type"
  | resultKind => "by_result_kind"

/-- What a call counts as in the table. -/
def item : Table → Call → String
  | operation, c => c.report.operation
  | errorType, c => c.fault.name
  | resultKind, c => c.report.resultKind

def all : List Table := [operation, errorType, resultKind]

theorem mem_all (t : Table) : t ∈ all := by
  cases t <;> decide

theorem key_ne (t : Table) :
    t.key ≠ "total_errors" ∧ t.key ≠ "last_error_timestamp" ∧ t.key ≠ "last_updated" := by
  cases t <;> decide

/-- What the calls count as in the table reads back unchanged. -/
def Faithful (t : Table) (calls : List Call) : Prop :=
  ∀ c ∈ calls, Json.pairedText (t.item c) = t.item c

/-- Only the kinds of the results may read back as something else. -/
theorem faithful_of_counted {t : Table} {calls : List Call} (hcounted : ∀ c ∈ calls, c.isCounted = true)
    (hkinds : t = resultKind → t.Faithful calls) : t.Faithful calls := by
  cases t with
  | operation =>
    exact fun c hc => Json.pairedText_of_nameable (Call.isCounted_iff.mp (hcounted c hc)).2
  | errorType => exact fun c _ => c.fault.pairedText_name
  | resultKind => exact hkinds rfl

end Table

theorem places_eq (c : Call) :
    places c.report.operation c.fault.name c.report.resultKind =
      Table.all.map fun t => (t.key, t.item c) := rfl

/-! ## 4. Statistics that account for calls -/

section Lookups

variable {stats stats' : List (String × Json)}

/-- **What the statistics hold after counting**: more in the tables in which something is counted, and
the same under all other keys. -/
theorem lookup_countAll {places : List (String × String)} (hp : (places.map Prod.fst).Nodup)
    (h : countAll stats places = .ok stats') :
    (∀ place ∈ places, ∃ sum, addOne (countOf stats place.1 place.2) = .ok sum ∧
      stats'.lookup place.1 = some (.obj (Json.setMember place.2 sum
        (membersOf ((stats.lookup place.1).getD .null))))) ∧
    ∀ key, key ∉ places.map Prod.fst → stats'.lookup key = stats.lookup key := by
  induction places generalizing stats with
  | nil =>
    cases h
    exact ⟨fun place hm => absurd hm List.not_mem_nil, fun _ _ => rfl⟩
  | cons place rest ih =>
    obtain ⟨hnot, hp⟩ := List.nodup_cons.mp hp
    obtain ⟨sum, hadd, hrest, hsame⟩ := countAll_cons hnot h
    obtain ⟨hcounted, hothers⟩ := ih hp hrest
    have hkept : ∀ {key : String}, key ≠ place.1 →
        (withCount stats place.1 place.2 sum).lookup key = stats.lookup key := by
      intro key hne
      exact Json.lookup_setMember_of_ne hne _ _
    refine ⟨fun other hother => ?_, fun key hkey => ?_⟩
    · rcases List.mem_cons.mp hother with rfl | hother
      · refine ⟨sum, hadd, (hothers _ hnot).trans ?_⟩
        exact Json.lookup_setMember_self _ _ _
      · have hne : other.1 ≠ place.1 := fun heq => hnot (heq ▸ List.mem_map_of_mem hother)
        obtain ⟨sum', hadd', hlookup⟩ := hcounted other hother
        rw [hsame other hother] at hadd'
        rw [hkept hne] at hlookup
        exact ⟨sum', hadd', hlookup⟩
    · rw [List.map_cons, List.mem_cons, not_or] at hkey
      rw [hothers key hkey.2, hkept hkey.1]

end Lookups

/-- **The statistics account for the calls.** -/
structure Reckons (calls : List Call) (stats : List (String × Json)) : Prop where
  total : (stats.lookup "total_errors").getD (.int 0) = .int calls.length
  tables : ∀ t : Table, t.Faithful calls →
    Tabulates (calls.map t.item) (membersOf ((stats.lookup t.key).getD .null))
  latest : stats.lookup "last_error_timestamp" = calls.getLast?.map Call.stamp

namespace Reckons

variable {calls : List Call} {stats stats' : List (String × Json)} {c : Call} {now : Json}

theorem nil : Reckons [] [] := ⟨rfl, fun _ _ => .nil, rfl⟩

/-- The number of times that an item was counted. -/
theorem countOf (h : Reckons calls stats) {t : Table} (ht : t.Faithful calls) (key : String) :
    ErrorStore.countOf stats t.key key = .int ((calls.map t.item).count key) :=
  (h.tables t ht).count key

/-- **Counting one more call**, writing the statistics and reading them again. -/
theorem counted (h : Reckons calls stats) (hstamp : c.stamp.IsFinite)
    (hall : countAll (countTotal stats)
      (places c.report.operation c.fault.name c.report.resultKind) = .ok stats') :
    Reckons (calls ++ [c]) (ManifestEntry.reread (Json.setMember "last_updated" now
      (Json.setMember "last_error_timestamp" c.stamp stats'))) := by
  obtain ⟨hcounted, hrest⟩ := lookup_countAll (places_nodup _ _ _) hall
  rw [places_eq] at hcounted
  have hothers : ∀ key, key ∉ Table.all.map Table.key →
      stats'.lookup key = (countTotal stats).lookup key := hrest
  have hlast : ∀ {key : String}, key ≠ "last_updated" → key ≠ "last_error_timestamp" →
      (ManifestEntry.reread (Json.setMember "last_updated" now
        (Json.setMember "last_error_timestamp" c.stamp stats'))).lookup key =
          (stats'.lookup key).map Json.reread := by
    intro key hupdated hlatest
    rw [ManifestEntry.lookup_reread, Json.lookup_setMember_of_ne hupdated,
      Json.lookup_setMember_of_ne hlatest]
  have htotal : (countTotal stats).lookup "total_errors" = some (.int (calls.length + 1)) := by
    unfold countTotal
    rw [Json.lookup_setMember_self, h.total]
    rfl
  refine ⟨?_, fun t ht => ?_, ?_⟩
  · rw [hlast (by decide) (by decide), hothers _ (by decide), htotal, List.length_append]
    rfl
  · obtain ⟨hne, hlatest, hupdated⟩ := t.key_ne
    obtain ⟨sum, hadd, hlookup⟩ :=
      hcounted (t.key, t.item c) (List.mem_map_of_mem t.mem_all)
    have hbefore : t.Faithful calls := fun c' hc' => ht c' (List.mem_append_left _ hc')
    have hsum : sum = .int ((calls.map t.item).count (t.item c) + 1) := by
      rw [countOf_countTotal hne, h.countOf hbefore] at hadd
      cases hadd
      rfl
    have hsame : (countTotal stats).lookup t.key = stats.lookup t.key := by
      unfold countTotal
      rw [Json.lookup_setMember_of_ne hne]
    have htable := (h.tables t hbefore).add (t.item c)
    have hread := htable.reread fun key hkey => ?_
    · rw [hlast hupdated hlatest, hlookup, hsum, hsame, Option.map_some, Option.getD_some, hread,
        List.map_append]
      exact htable
    · rcases List.mem_append.mp hkey with hkey | hkey
      · obtain ⟨c', hc', rfl⟩ := List.mem_map.mp hkey
        exact hbefore c' hc'
      · rw [List.mem_singleton.mp hkey]
        exact ht c (List.mem_append_right _ List.mem_cons_self)
  · rw [ManifestEntry.lookup_reread, Json.lookup_setMember_of_ne (by decide),
      Json.lookup_setMember_self, Option.map_some, hstamp.reread, List.getLast?_concat,
      Option.map_some]

end Reckons

end ErrorStore

end Dissect
