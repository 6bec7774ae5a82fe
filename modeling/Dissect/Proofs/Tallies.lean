/-
# The statistics that a store keeps

Statistics that nothing but the store has written tell how many failures it has recorded since they
were begun, and none of their counts is greater (`Tally`).  This is kept when a failure is counted
(`Tally.counted`) and when the statistics are written and read again (`Tally.reread`); that a
text may not read back as it was written, so that two counts become one, does no harm to it.  A failure
can therefore always be counted (`Tally.counts`), as long as there are ids left for records.
-/
import Dissect.Proofs.FailureCounts
import Dissect.Proofs.ReadRecords

namespace Dissect.ErrorStore

open Files (Disk Location)

variable {s : ErrorStore} {d d' : Disk} {loc : Location} {stamp now : Json}
  {stats stats' : List (String × Json)} {key table item : String} {total : ℤ} {bound count : ℕ}

/-! ## 1. Tables of counts -/

/-- Every count in a table is a whole number up to a bound. -/
def UpTo (bound : ℕ) (table : Json) : Prop :=
  ∀ member ∈ membersOf table, ∃ count : ℕ, member.2 = .int count ∧ count ≤ bound

namespace UpTo

theorem of_no_members {document : Json} (h : membersOf document = []) : UpTo bound document := by
  intro member hm
  rw [h] at hm
  cases hm

theorem mono {table : Json} {greater : ℕ} (h : UpTo bound table) (hle : bound ≤ greater) :
    UpTo greater table := by
  intro member hm
  obtain ⟨count, hcount, hbound⟩ := h member hm
  exact ⟨count, hcount, hbound.trans hle⟩

theorem set {table : Json} (h : UpTo bound table) (item : String) (hcount : count ≤ bound) :
    UpTo bound (.obj (Json.setMember item (.int count) (membersOf table))) := by
  intro member hm
  rcases Json.mem_setMember hm with hm | hvalue
  · exact h member hm
  · exact ⟨count, hvalue, hcount⟩

theorem reread {table : Json} (h : UpTo bound table) : UpTo bound table.reread := by
  cases table with
  | obj members =>
    rw [Json.reread]
    refine Json.forall_rereadMembers
      (P := fun value => ∃ count : ℕ, value = .int count ∧ count ≤ bound) (fun member hm => ?_)
      (by simp)
    obtain ⟨count, hcount, hbound⟩ := h member hm
    refine ⟨count, ?_, hbound⟩
    rw [hcount]
    rfl
  | _ => exact of_no_members rfl

/-- A table of small counts is within the limits. -/
theorem readable {members : List (String × Json)} (h : UpTo bound (.obj members))
    (hshort : bound < 10 ^ Json.maxDigits) (depth : ℕ) : Json.Readable (depth + 1) (.obj members) := by
  refine .obj fun member hm => ?_
  obtain ⟨count, hcount, hbound⟩ := h member hm
  rw [hcount]
  exact .int (by rw [Int.natAbs_natCast]; omega)

theorem lookup {members : List (String × Json)} (h : UpTo bound (.obj members)) (item : String) :
    ∃ count : ℕ, (members.lookup item).getD (.int 0) = .int count ∧ count ≤ bound := by
  cases hl : members.lookup item with
  | none => exact ⟨0, rfl, Nat.zero_le _⟩
  | some value => exact h _ (Assoc.mem_of_lookup hl)

end UpTo

/-! ## 2. Statistics -/

/-- The keys of the statistics. -/
def statsKeys : List String :=
  ["total_errors", "by_operation", "by_type", "by_result_kind", "last_error_timestamp", "last_updated"]

theorem keys_setMember (key : String) (value : Json) (members : List (String × Json)) :
    (Json.setMember key value members).map Prod.fst =
      if key ∈ members.map Prod.fst then members.map Prod.fst else members.map Prod.fst ++ [key] :=
  Assoc.keys_set key value members

/-- **The statistics tell a total, and count nothing more often than a bound says.** -/
structure Tally (total : ℤ) (bound : ℕ) (stats : List (String × Json)) : Prop where
  keys : ∀ key ∈ stats.map Prod.fst, key ∈ statsKeys
  nodup : (stats.map Prod.fst).Nodup
  readable : ∀ member ∈ stats, Json.Readable 985 member.2
  total : totalOf stats = total
  counts : ∀ key, UpTo bound ((stats.lookup key).getD .null)

namespace Tally

theorem empty : Tally 0 0 [] :=
  ⟨by simp, List.nodup_nil, by simp, rfl, fun _ => UpTo.of_no_members rfl⟩

theorem mono {greater : ℕ} (h : Tally total bound stats) (hle : bound ≤ greater) :
    Tally total greater stats :=
  { h with counts := fun key => (h.counts key).mono hle }

/-- Setting a member keeps the tables, if the member holds no greater counts. -/
theorem set_tables (h : Tally total bound stats) {value : Json} (hv : UpTo bound value) (other : String) :
    UpTo bound (((Json.setMember key value stats).lookup other).getD .null) := by
  by_cases hother : other = key
  · rw [hother, Json.lookup_setMember_self]
    exact hv
  · rw [Json.lookup_setMember_of_ne hother]
    exact h.counts other

theorem set_keys (h : Tally total bound stats) {value : Json} (hkey : key ∈ statsKeys) :
    (∀ other ∈ (Json.setMember key value stats).map Prod.fst, other ∈ statsKeys) ∧
      ((Json.setMember key value stats).map Prod.fst).Nodup := by
  rw [keys_setMember]
  split
  · exact ⟨h.keys, h.nodup⟩
  · rename_i hnew
    refine ⟨fun other hm => ?_, ?_⟩
    · rcases List.mem_append.mp hm with hm | hm
      · exact h.keys other hm
      · rw [List.mem_singleton.mp hm]
        exact hkey
    · exact List.nodup_append.mpr ⟨h.nodup, List.nodup_singleton key, fun a ha b hb heq =>
        hnew (List.mem_singleton.mp hb ▸ heq ▸ ha)⟩

/-- Setting a member other than the total. -/
theorem set (h : Tally total bound stats) {value : Json} (hkey : key ∈ statsKeys)
    (hne : key ≠ "total_errors") (hr : Json.Readable 985 value) (hv : UpTo bound value) :
    Tally total bound (Json.setMember key value stats) := by
  refine ⟨(h.set_keys hkey).1, (h.set_keys hkey).2, fun member hm => ?_, ?_, h.set_tables hv⟩
  · rcases Json.mem_setMember hm with hm | hvalue
    · exact h.readable member hm
    · rw [hvalue]
      exact hr
  · rw [← h.total]
    unfold totalOf
    rw [Json.lookup_setMember_of_ne hne.symm]

/-- Increasing the total. -/
theorem countTotal (h : Tally total bound stats) (hshort : (total + 1).natAbs < 10 ^ Json.maxDigits) :
    Tally (total + 1) bound (countTotal stats) := by
  have hkey : "total_errors" ∈ statsKeys := List.mem_cons_self
  have heq : ErrorStore.countTotal stats =
      Json.setMember "total_errors" (.int (total + 1)) stats := by
    rw [← h.total]
    rfl
  rw [heq]
  refine ⟨(h.set_keys hkey).1, (h.set_keys hkey).2, fun member hm => ?_, ?_,
    h.set_tables (UpTo.of_no_members rfl)⟩
  · rcases Json.mem_setMember hm with hm | hvalue
    · exact h.readable member hm
    · rw [hvalue]
      exact .int hshort
  · unfold totalOf
    rw [Json.lookup_setMember_self]
    rfl

theorem countOf (h : Tally total bound stats) (table item : String) :
    ∃ count : ℕ, countOf stats table item = .int count ∧ count ≤ bound := by
  have hcounts := h.counts table
  unfold ErrorStore.countOf
  cases hl : (stats.lookup table).getD .null with
  | obj members =>
    rw [hl] at hcounts
    exact hcounts.lookup item
  | _ => exact ⟨0, rfl, Nat.zero_le _⟩

/-- Increasing the counts of some items in different tables, all of which are less than the bound. -/
theorem countAll {places : List (String × String)} (h : Tally total bound stats)
    (hshort : bound < 10 ^ Json.maxDigits) (hp : (places.map Prod.fst).Nodup)
    (hkeys : ∀ place ∈ places, place.1 ∈ statsKeys ∧ place.1 ≠ "total_errors")
    (hless : ∀ place ∈ places, ∃ count : ℕ,
      ErrorStore.countOf stats place.1 place.2 = .int count ∧ count < bound)
    (hall : countAll stats places = .ok stats') : Tally total bound stats' := by
  induction places generalizing stats with
  | nil =>
    cases hall
    exact h
  | cons place rest ih =>
    obtain ⟨hnot, hp⟩ := List.nodup_cons.mp hp
    obtain ⟨sum, hadd, hrest, hsame⟩ := countAll_cons hnot hall
    obtain ⟨count, hcount, hbound⟩ := hless place List.mem_cons_self
    obtain ⟨hkey, hne⟩ := hkeys place List.mem_cons_self
    have hsum : sum = .int (count + 1 : ℕ) := by
      rw [hcount] at hadd
      cases hadd
      rfl
    have htable := (h.counts place.1).set place.2 (Nat.succ_le_iff.mpr hbound)
    rw [hsum] at hrest hsame
    refine ih (h.set hkey hne (htable.readable hshort 984) htable) hp
      (fun other hm => hkeys other (List.mem_cons_of_mem _ hm)) (fun other hm => ?_) hrest
    obtain ⟨count', hcount', hbound'⟩ := hless other (List.mem_cons_of_mem _ hm)
    exact ⟨count', (hsame other hm).trans hcount', hbound'⟩

/-- The statistics after they have been written and read again. -/
theorem reread (h : Tally total bound stats) :
    (Json.obj stats).reread = .obj (ManifestEntry.reread stats) ∧
      Tally total bound (ManifestEntry.reread stats) := by
  have hascii : ∀ key ∈ statsKeys, ∀ c ∈ key.toList, c.toNat < 0x80 := by decide
  have hkeys := ManifestEntry.keys_reread stats
  refine ⟨Json.reread_obj (fun key hm => hascii key (h.keys key hm)) h.nodup, ?_, ?_, ?_, ?_, ?_⟩
  · rw [hkeys]
    exact h.keys
  · rw [hkeys]
    exact h.nodup
  · intro member hm
    obtain ⟨original, horiginal, rfl⟩ := List.mem_map.mp hm
    exact (h.readable original horiginal).reread
  · rw [← h.total]
    unfold totalOf
    rw [ManifestEntry.lookup_reread]
    cases stats.lookup "total_errors" with
    | none => rfl
    | some value => cases value <;> rfl
  · intro key
    have hcounts := h.counts key
    rw [ManifestEntry.lookup_reread]
    cases hl : stats.lookup key with
    | none => exact UpTo.of_no_members rfl
    | some value =>
      rw [hl] at hcounts
      exact hcounts.reread

end Tally

/-! ## 3. Counting failures -/

variable {operation errorType resultKind : String}

/-- There are more numbers that can be written than ids. -/
theorem ids_lt : 16 ^ 16 < 10 ^ Json.maxDigits - 1 := by
  have hless : 10 ^ 20 < 10 ^ Json.maxDigits := Nat.pow_lt_pow_right (by decide) (by decide)
  omega

/-- **A failure can be counted** as long as there are ids left. -/
theorem Tally.counts_failure {n : ℕ} (h : Tally n n stats) (hn : n < 16 ^ 16)
    (operation errorType resultKind : String) : Counts stats operation errorType resultKind := by
  have hids := ids_lt
  have hless : (n : ℤ) < greatest := by
    unfold greatest
    rw [Json.tooLong_eq]
    omega
  refine ⟨fun place _ => ?_, ?_⟩
  · obtain ⟨count, hcount, hbound⟩ := h.countOf place.1 place.2
    rw [hcount]
    refine ⟨rfl, fun heq => ?_⟩
    have hgreatest : (count : ℤ) = greatest := Option.some.inj heq
    omega
  · rw [h.total]
    exact ne_of_lt hless

/-- **The statistics after a failure has been counted.** -/
theorem Tally.counted {n : ℕ} (h : Tally n n stats) (hn : n + 1 < 16 ^ 16) (hs : Accepted stamp)
    (hnow : Accepted now)
    (hall : ErrorStore.countAll (ErrorStore.countTotal stats)
      (places operation errorType resultKind) = .ok stats') :
    Tally (n + 1 : ℕ) (n + 1) (Json.setMember "last_updated" now
      (Json.setMember "last_error_timestamp" stamp stats')) := by
  have hids := ids_lt
  have hshort : n + 1 < 10 ^ Json.maxDigits := by omega
  have hnumber : ∀ {stamp : Json}, Accepted stamp → UpTo (n + 1) stamp := by
    intro stamp ha
    refine UpTo.of_no_members ?_
    have hfinite := ha.dated.isFinite
    cases hfinite <;> rfl
  have htotal : Tally (n + 1 : ℕ) n (ErrorStore.countTotal stats) := h.countTotal (by omega)
  have hcounted : Tally (n + 1 : ℕ) (n + 1) stats' := by
    refine (htotal.mono (Nat.le_succ n)).countAll hshort (places_nodup _ _ _) (fun place hplace => ?_)
      (fun place _ => ?_) hall
    · have hkeys : ∀ table ∈ ["by_operation", "by_type", "by_result_kind"],
          table ∈ statsKeys ∧ table ≠ "total_errors" := by decide
      exact hkeys place.1 (List.mem_map_of_mem (f := Prod.fst) hplace)
    · obtain ⟨count, hcount, hbound⟩ := htotal.countOf place.1 place.2
      exact ⟨count, hcount, Nat.lt_succ_of_le hbound⟩
  refine (hcounted.set (by decide) (by decide) (hs.readable _) (hnumber hs)).set (by decide)
    (by decide) (hnow.readable _) (hnumber hnow)

/-- **Statistics that have been saved are read again**, and are not nested too deeply. -/
theorem Usable.saved_stats (h : Usable s d loc) (ht : Tally total bound stats)
    (hs : Saved s loc statsName (.obj stats) d d') :
    ¬ TooDeep d' s.statsPath ∧ s.statsIn d' = ManifestEntry.reread stats := by
  obtain ⟨hn, hup⟩ := statsName_plain
  have husable := h.saved hs hn hup
  obtain ⟨mode, hnode⟩ := hs.self h.statsFits
  obtain ⟨hreread, -⟩ := ht.reread
  have hread : read d' s.statsPath = .ok (some (Json.obj stats).reread) :=
    husable.read_file hn hup h.statsFits h.nameable_stats (.obj ht.readable) hnode
  refine ⟨not_tooDeep hread, ?_⟩
  have hheld : held d' s.statsPath .table = (Json.obj stats).reread :=
    held_of_read hread (by rw [hreread]; rfl)
  unfold statsIn
  rw [hheld, hreread]
  rfl

end Dissect.ErrorStore
