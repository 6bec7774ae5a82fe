/-
# Counting failures

The statistics of a store count failures in three tables, and in all.  A failure can be counted
(`Counts`) if each of its counts is a number and none of them, nor the total, is the greatest one that
can be written.  Counting it fails exactly if it cannot be counted, or if the statistics are nested
too deeply (`Usable.updateStats_fails_iff`).
-/
import Dissect.Proofs.UsableStores

namespace Dissect

open Files (Disk Location)

namespace ErrorStore

variable {s : ErrorStore} {d : Disk} {loc : Location} {host : Host} {stamp : Json}

/-! ## 1. Counts -/

/-- The count of an item in a table of the statistics. -/
def countOf (stats : List (String × Json)) (table item : String) : Json :=
  ((membersOf ((stats.lookup table).getD .null)).lookup item).getD (.int 0)

/-- The number of failures that the statistics tell. -/
def totalOf (stats : List (String × Json)) : Int :=
  (((stats.lookup "total_errors").getD (.int 0)).whole?).getD 0

/-- The greatest whole number that can be written. -/
def greatest : Int := Json.tooLong - 1

/-- One can be added to the count and the sum be written. -/
def Countable (count : Json) : Prop := count.isNumber = true ∧ count.whole? ≠ some greatest

theorem addOne_fails_iff {count : Json} :
    (∃ trouble, addOne count = .error trouble) ↔ count.isNumber = false := by
  unfold addOne
  cases count with
  | null => simp [Json.whole?, Json.isNumber]
  | bool b => simp [Json.whole?, Json.isNumber]
  | int n => simp [Json.whole?, Json.isNumber]
  | real x => simp [Json.whole?, Json.isNumber]
  | str t => simp [Json.whole?, Json.isNumber]
  | arr items => simp [Json.whole?, Json.isNumber]
  | obj members => simp [Json.whole?, Json.isNumber]

theorem isWritable_succ {n : Int} (h : n.natAbs < Json.tooLong) :
    (Json.int (n + 1)).isWritable = true ↔ n ≠ greatest := by
  rw [Json.isWritable_int, decide_eq_true_iff]
  unfold greatest
  generalize Json.tooLong = bound at h ⊢
  omega

theorem addOne_writable {depth : Nat} {count sum : Json} (hc : Json.Readable depth count)
    (h : addOne count = .ok sum) : sum.isWritable = true ↔ count.whole? ≠ some greatest := by
  unfold addOne at h
  cases hc with
  | null => cases h
  | bool b =>
    have hbound := pow_seventeen_lt
    rw [← Json.tooLong_eq] at hbound
    have hshort : (if b = true then (1 : Int) else 0).natAbs < Json.tooLong := by
      split <;> omega
    cases h
    rw [isWritable_succ hshort]
    simp [Json.whole?]
  | @int _ n short =>
    cases h
    rw [isWritable_succ (Json.tooLong_eq ▸ short)]
    simp [Json.whole?]
  | real canonical =>
    cases h
    simp [Json.whole?]
    rfl
  | str t => cases h
  | arr _ => cases h
  | obj _ => cases h

/-! ## 2. Counting in several tables -/

section Counting

variable {stats stats' : List (String × Json)} {table item : String}

theorem mem_setMember_of_ne {key : String} {value : Json} {members : List (String × Json)}
    {member : String × Json} (h : member ∈ members) (hne : member.1 ≠ key) :
    member ∈ Json.setMember key value members := by
  unfold Json.setMember
  induction members with
  | nil => cases h
  | cons first rest ih =>
    rw [Assoc.set]
    rcases List.mem_cons.mp h with rfl | h
    · rw [if_neg (by simpa using hne.symm)]
      exact List.mem_cons_self
    · split
      · exact List.mem_cons_of_mem _ h
      · exact List.mem_cons_of_mem _ (ih h)

theorem self_mem_setMember (key : String) (value : Json) (members : List (String × Json)) :
    (key, value) ∈ Json.setMember key value members := by
  unfold Json.setMember
  induction members with
  | nil => exact List.mem_cons_self
  | cons first rest ih =>
    obtain ⟨k, v⟩ := first
    rw [Assoc.set]
    by_cases hk : key = k
    · subst hk
      simp
    · rw [if_neg (by simpa using hk)]
      exact List.mem_cons_of_mem _ ih

/-- The statistics with one more of an item in a table. -/
def withCount (stats : List (String × Json)) (table item : String) (count : Json) :
    List (String × Json) :=
  Json.setMember table
    (.obj (Json.setMember item count (membersOf ((stats.lookup table).getD .null)))) stats

theorem countIn_eq (stats : List (String × Json)) (table item : String) :
    countIn stats table item =
      (addOne (countOf stats table item)).map (withCount stats table item) := by
  unfold countIn countOf
  dsimp only
  cases addOne (((membersOf ((stats.lookup table).getD .null)).lookup item).getD (.int 0)) <;> rfl

theorem countOf_withCount {other : String} (hne : other ≠ table) (count : Json) (thing : String) :
    countOf (withCount stats table item count) other thing = countOf stats other thing := by
  unfold countOf withCount
  rw [Json.lookup_setMember_of_ne hne]

/-- Counting in a table leaves the counts of other tables. -/
theorem countOf_others {place : String × String} {rest : List (String × String)}
    (hnot : place.1 ∉ rest.map Prod.fst) (count : Json) : ∀ other ∈ rest,
      countOf (withCount stats place.1 place.2 count) other.1 other.2 =
        countOf stats other.1 other.2 := by
  intro other hother
  refine countOf_withCount (fun he => hnot ?_) count other.2
  exact List.mem_map.mpr ⟨other, hother, he⟩

/-- The statistics with one more of each of some items in their tables. -/
def countAll (stats : List (String × Json)) : List (String × String) →
    Except Fault (List (String × Json))
  | [] => .ok stats
  | (table, item) :: rest => do countAll (← countIn stats table item) rest

/-- Counting in tables that differ fails exactly if one of the counts is no number. -/
theorem countAll_fails_iff {places : List (String × String)}
    (hp : (places.map Prod.fst).Nodup) :
    (∃ trouble, countAll stats places = .error trouble) ↔
      ∃ place ∈ places, (countOf stats place.1 place.2).isNumber = false := by
  induction places generalizing stats with
  | nil => simp [countAll]
  | cons place rest ih =>
    obtain ⟨table, item⟩ := place
    obtain ⟨hnot, hp⟩ := List.nodup_cons.mp hp
    rw [countAll, countIn_eq]
    cases hadd : addOne (countOf stats table item) with
    | error trouble =>
      have hno := addOne_fails_iff.mp ⟨trouble, hadd⟩
      exact ⟨fun _ => ⟨_, List.mem_cons_self, hno⟩, fun _ => ⟨trouble, rfl⟩⟩
    | ok sum =>
      have hnumber : (countOf stats table item).isNumber = true := by
        cases hn : (countOf stats table item).isNumber with
        | true => rfl
        | false =>
          obtain ⟨trouble, htrouble⟩ := addOne_fails_iff.mpr hn
          rw [hadd] at htrouble
          cases htrouble
      have hsame : ∀ place ∈ rest, countOf (withCount stats table item sum) place.1 place.2 =
          countOf stats place.1 place.2 := countOf_others hnot sum
      refine (ih hp).trans ?_
      constructor
      · rintro ⟨place, hplace, hno⟩
        rw [hsame place hplace] at hno
        exact ⟨place, List.mem_cons_of_mem _ hplace, hno⟩
      · rintro ⟨place, hplace, hno⟩
        rcases List.mem_cons.mp hplace with rfl | hplace
        · rw [hnumber] at hno
          cases hno
        · exact ⟨place, hplace, (hsame place hplace).symm ▸ hno⟩

/-- Counting starts with the first place. -/
theorem countAll_cons_ok {place : String × String} {rest : List (String × String)}
    (h : countAll stats (place :: rest) = .ok stats') :
    ∃ sum, addOne (countOf stats place.1 place.2) = .ok sum ∧
      countAll (withCount stats place.1 place.2 sum) rest = .ok stats' := by
  obtain ⟨table, item⟩ := place
  rw [countAll, countIn_eq] at h
  obtain ⟨counted, hcounted, h⟩ := ok_of_bind h
  cases hadd : addOne (countOf stats table item) with
  | error trouble =>
    rw [hadd] at hcounted
    cases hcounted
  | ok sum =>
    rw [hadd] at hcounted
    cases hcounted
    exact ⟨sum, rfl, h⟩

/-- What stands in none of the tables is not touched by counting. -/
theorem mem_of_countAll {places : List (String × String)} {member : String × Json}
    (h : countAll stats places = .ok stats') (hm : member ∈ stats)
    (hne : member.1 ∉ places.map Prod.fst) : member ∈ stats' := by
  induction places generalizing stats with
  | nil =>
    cases h
    exact hm
  | cons place rest ih =>
    obtain ⟨sum, -, hrest⟩ := countAll_cons_ok h
    simp only [List.map_cons, List.mem_cons, not_or] at hne
    exact ih hrest (mem_setMember_of_ne hm hne.1) hne.2

/-- Every member of the statistics can be written. -/
def AllWritable (stats : List (String × Json)) : Prop := ∀ member ∈ stats, member.2.isWritable = true

theorem AllWritable.set {key : String} {value : Json} (h : AllWritable stats)
    (hv : value.isWritable = true) : AllWritable (Json.setMember key value stats) := by
  intro member hmember
  rcases Json.mem_setMember hmember with hm | heq
  · exact h member hm
  · rw [heq]
    exact hv

theorem AllWritable.counts (h : AllWritable stats) (table : String) :
    AllWritable (membersOf ((stats.lookup table).getD .null)) := by
  cases hl : stats.lookup table with
  | none => simp [AllWritable, membersOf]
  | some value =>
    have hv := h _ (Assoc.mem_of_lookup hl)
    cases value with
    | obj members =>
      rw [Json.isWritable_obj] at hv
      exact List.all_eq_true.mp hv
    | _ => simp [AllWritable, membersOf]

/-- A count that is taken from a table is within the limits if the statistics are. -/
theorem readable_countOf {depth : Nat} (h : ∀ member ∈ stats, Json.Readable (depth + 1) member.2) :
    Json.Readable depth (countOf stats table item) := by
  have hzero : Json.Readable depth (.int 0) := .int (Nat.pow_pos (by decide))
  unfold countOf
  cases hl : stats.lookup table with
  | none => exact hzero
  | some value =>
    have hv := h _ (Assoc.mem_of_lookup hl)
    cases value with
    | obj members =>
      cases hv with
      | obj all =>
        cases hc : members.lookup item with
        | none =>
          simp only [Option.getD_some, membersOf, hc, Option.getD_none]
          exact hzero
        | some count =>
          simp only [Option.getD_some, membersOf, hc]
          exact all _ (Assoc.mem_of_lookup hc)
    | _ => exact hzero

/-- A step of counting, with what it leaves of the other counts. -/
theorem countAll_cons {place : String × String} {rest : List (String × String)}
    (hnot : place.1 ∉ rest.map Prod.fst) (h : countAll stats (place :: rest) = .ok stats') :
    ∃ sum, addOne (countOf stats place.1 place.2) = .ok sum ∧
      countAll (withCount stats place.1 place.2 sum) rest = .ok stats' ∧
      ∀ other ∈ rest, countOf (withCount stats place.1 place.2 sum) other.1 other.2 =
        countOf stats other.1 other.2 := by
  obtain ⟨sum, hadd, hrest⟩ := countAll_cons_ok h
  exact ⟨sum, hadd, hrest, countOf_others hnot sum⟩

/-- Statistics that can be written stay so if no count is the greatest number. -/
theorem countAll_writable {places : List (String × String)} {depth : Nat}
    (hp : (places.map Prod.fst).Nodup) (hs : AllWritable stats)
    (hr : ∀ place ∈ places, Json.Readable depth (countOf stats place.1 place.2))
    (hall : ∀ place ∈ places, (countOf stats place.1 place.2).whole? ≠ some greatest)
    (h : countAll stats places = .ok stats') : AllWritable stats' := by
  induction places generalizing stats with
  | nil =>
    cases h
    exact hs
  | cons place rest ih =>
    obtain ⟨hnot, hp⟩ := List.nodup_cons.mp hp
    obtain ⟨sum, hadd, hrest, hsame⟩ := countAll_cons hnot h
    have hsum := (addOne_writable (hr _ List.mem_cons_self) hadd).mpr (hall _ List.mem_cons_self)
    have htable : (Json.obj (Json.setMember place.2 sum
        (membersOf ((stats.lookup place.1).getD .null)))).isWritable = true := by
      rw [Json.isWritable_obj]
      exact List.all_eq_true.mpr ((hs.counts place.1).set hsum)
    refine ih hp (hs.set htable) (fun other hother => ?_) (fun other hother => ?_) hrest
    · exact (hsame other hother).symm ▸ hr other (List.mem_cons_of_mem _ hother)
    · exact (hsame other hother).symm ▸ hall other (List.mem_cons_of_mem _ hother)

/-- A count that was the greatest number leaves a table that cannot be written. -/
theorem countAll_unwritable {places : List (String × String)} {depth : Nat}
    (hp : (places.map Prod.fst).Nodup)
    (hr : ∀ place ∈ places, Json.Readable depth (countOf stats place.1 place.2))
    {place : String × String} (hplace : place ∈ places)
    (hgreatest : (countOf stats place.1 place.2).whole? = some greatest)
    (h : countAll stats places = .ok stats') :
    ∃ value, (place.1, value) ∈ stats' ∧ value.isWritable = false := by
  induction places generalizing stats with
  | nil => cases hplace
  | cons first rest ih =>
    obtain ⟨hnot, hp⟩ := List.nodup_cons.mp hp
    obtain ⟨sum, hadd, hrest, hsame⟩ := countAll_cons hnot h
    rcases List.mem_cons.mp hplace with rfl | hplace
    · have hsum : sum.isWritable ≠ true := fun hw =>
        (addOne_writable (hr _ List.mem_cons_self) hadd).mp hw hgreatest
      refine ⟨_, mem_of_countAll hrest (self_mem_setMember place.1 _ stats) hnot, ?_⟩
      rw [Bool.eq_false_iff]
      intro hw
      rw [Json.isWritable_obj] at hw
      exact hsum (List.all_eq_true.mp hw _ (self_mem_setMember place.2 sum _))
    · refine ih hp (fun other hother => ?_) hplace ?_ hrest
      · exact (hsame other hother).symm ▸ hr other (List.mem_cons_of_mem _ hother)
      · rw [hsame place hplace]
        exact hgreatest

end Counting

/-! ## 3. The statistics of a store -/

/-- The places in the statistics where a failure counts. -/
def places (operation errorType resultKind : String) : List (String × String) :=
  [("by_operation", operation), ("by_type", errorType), ("by_result_kind", resultKind)]

theorem places_nodup (operation errorType resultKind : String) :
    ((places operation errorType resultKind).map Prod.fst).Nodup := by
  simp [places]

theorem ofExcept_bind {α β : Type} (first : Except Fault α) (next : α → Except Fault β) :
    Run.ofExcept (first >>= next) = (do Run.ofExcept (next (← Run.ofExcept first))) := by
  cases first <;> rfl

theorem updateStats_eq (s : ErrorStore) (stamp : Json) (operation errorType resultKind : String) :
    s.updateStats stamp operation errorType resultKind = (do
      let stats ← s.stats
      let stats ← Run.ofExcept
        (countAll (countTotal stats) (places operation errorType resultKind))
      let now ← readClock
      save s.statsPath (.obj (Json.setMember "last_updated" now
        (Json.setMember "last_error_timestamp" stamp stats)))) := by
  have hpure : ∀ stats : List (String × Json), Run.ofExcept (.ok stats) = pure stats := fun _ => rfl
  unfold updateStats places
  simp only [countAll, ofExcept_bind, bind_assoc, hpure, pure_bind]

/-- The statistics on a disk are within the limits. -/
theorem readable_stats {member : String × Json} (h : member ∈ s.statsIn d) :
    Json.Readable 985 member.2 := by
  have hheld := readable_held d s.statsPath .table
  unfold statsIn at h
  cases hs : held d s.statsPath .table with
  | obj members =>
    rw [hs] at h hheld
    cases hheld with
    | obj all => exact all _ h
  | _ =>
    rw [hs] at h
    cases h

/-- Increasing the total leaves the counts. -/
theorem countOf_countTotal {stats : List (String × Json)} {table : String}
    (hne : table ≠ "total_errors") (item : String) :
    countOf (countTotal stats) table item = countOf stats table item := by
  unfold countOf countTotal
  rw [Json.lookup_setMember_of_ne hne]

theorem readable_totalOf {stats : List (String × Json)} {depth : Nat}
    (h : ∀ member ∈ stats, Json.Readable depth member.2) :
    (totalOf stats).natAbs < Json.tooLong := by
  have hpos : 1 < Json.tooLong := by
    have hbound := pow_seventeen_lt
    rw [← Json.tooLong_eq] at hbound
    omega
  unfold totalOf
  cases hl : stats.lookup "total_errors" with
  | none =>
    show (0 : Int).natAbs < Json.tooLong
    omega
  | some value =>
    have hv := h _ (Assoc.mem_of_lookup hl)
    cases value with
    | int n =>
      cases hv with
      | int short => exact Json.tooLong_eq ▸ short
    | bool b => cases b <;> (simp only [Option.getD_some, Json.whole?]; omega)
    | _ =>
      show (0 : Int).natAbs < Json.tooLong
      omega

/-- The failure can be counted: each of its counts can be increased and written, and so can the
total. -/
structure Counts (stats : List (String × Json)) (operation errorType resultKind : String) : Prop where
  each : ∀ place ∈ places operation errorType resultKind,
    Countable (countOf stats place.1 place.2)
  total : totalOf stats ≠ greatest

variable {operation errorType resultKind : String}

/-- What is written of the statistics after a failure has been counted. -/
def newStats (stats : List (String × Json)) (stamp now : Json) : Json :=
  .obj (Json.setMember "last_updated" now (Json.setMember "last_error_timestamp" stamp stats))

theorem mem_places {place : String × String} (h : place ∈ places operation errorType resultKind) :
    place.1 ≠ "total_errors" ∧ place.1 ≠ "last_error_timestamp" ∧ place.1 ≠ "last_updated" := by
  simp only [places, List.mem_cons, List.not_mem_nil, or_false] at h
  rcases h with rfl | rfl | rfl
  · simp
  · simp
  · simp

section Counted

variable {stats stats' : List (String × Json)} {place : String × String} {now : Json}

theorem countOf_place (h : place ∈ places operation errorType resultKind) :
    countOf (countTotal stats) place.1 place.2 = countOf stats place.1 place.2 :=
  countOf_countTotal (mem_places h).1 place.2

theorem readable_place (hr : ∀ member ∈ stats, Json.Readable 985 member.2)
    (h : place ∈ places operation errorType resultKind) :
    Json.Readable 984 (countOf (countTotal stats) place.1 place.2) :=
  (countOf_place h).symm ▸ readable_countOf hr

/-- A failure that can be counted leaves statistics that can be written. -/
theorem Counts.written (h : Counts stats operation errorType resultKind)
    (hr : ∀ member ∈ stats, Json.Readable 985 member.2) (hs : stamp.isWritable = true)
    (hn : now.isWritable = true) :
    ∃ stats', countAll (countTotal stats) (places operation errorType resultKind) = .ok stats' ∧
      (newStats stats' stamp now).isWritable = true := by
  have hnodup := places_nodup operation errorType resultKind
  cases hall : countAll (countTotal stats) (places operation errorType resultKind) with
  | error trouble =>
    obtain ⟨place, hplace, hno⟩ := (countAll_fails_iff hnodup).mp ⟨trouble, hall⟩
    rw [countOf_place hplace, (h.each place hplace).1] at hno
    cases hno
  | ok stats' =>
    have hstats : AllWritable stats := fun member hm => (hr member hm).isWritable
    have htotal := (isWritable_succ (readable_totalOf hr)).mpr h.total
    have hwritable := countAll_writable hnodup (hstats.set htotal)
      (fun place hplace => readable_place hr hplace)
      (fun place hplace => (countOf_place hplace).symm ▸ (h.each place hplace).2) hall
    refine ⟨stats', rfl, ?_⟩
    rw [newStats, Json.isWritable_obj]
    exact List.all_eq_true.mpr ((hwritable.set hs).set hn)

/-- Where statistics with a failure can be written, the failure could be counted. -/
theorem counts_of_written (hr : ∀ member ∈ stats, Json.Readable 985 member.2)
    (hall : countAll (countTotal stats) (places operation errorType resultKind) = .ok stats')
    (hwritable : (newStats stats' stamp now).isWritable = true) :
    Counts stats operation errorType resultKind := by
  have hnodup := places_nodup operation errorType resultKind
  rw [newStats, Json.isWritable_obj] at hwritable
  have hkept : ∀ member ∈ stats', member.1 ≠ "last_error_timestamp" → member.1 ≠ "last_updated" →
      member.2.isWritable = true := fun member hm hstamp hnow =>
    List.all_eq_true.mp hwritable member
      (mem_setMember_of_ne (mem_setMember_of_ne hm hstamp) hnow)
  refine ⟨fun place hplace => ⟨?_, fun hgreatest => ?_⟩, ?_⟩
  · cases hno : (countOf stats place.1 place.2).isNumber with
    | true => rfl
    | false =>
      obtain ⟨trouble, htrouble⟩ :=
        (countAll_fails_iff hnodup).mpr ⟨place, hplace, (countOf_place hplace).symm ▸ hno⟩
      rw [hall] at htrouble
      cases htrouble
  · obtain ⟨-, hstamp, hnow⟩ := mem_places hplace
    obtain ⟨value, hvalue, hunwritable⟩ := countAll_unwritable hnodup
      (fun place hplace => readable_place hr hplace) hplace
      ((countOf_place hplace).symm ▸ hgreatest) hall
    rw [hkept _ hvalue hstamp hnow] at hunwritable
    cases hunwritable
  · refine (isWritable_succ (readable_totalOf hr)).mp
      (hkept ("total_errors", .int (totalOf stats + 1)) ?_ (by simp) (by simp))
    refine mem_of_countAll hall (self_mem_setMember _ _ _) fun hmem => ?_
    obtain ⟨place, hplace, heq⟩ := List.mem_map.mp hmem
    exact (mem_places hplace).1 heq

/-- **A failure that can be counted leaves statistics that can be written**, and only such a one. -/
theorem counts_iff (hr : ∀ member ∈ stats, Json.Readable 985 member.2)
    (hs : stamp.isWritable = true) (hn : now.isWritable = true) :
    Counts stats operation errorType resultKind ↔
      ∃ stats', countAll (countTotal stats) (places operation errorType resultKind) = .ok stats' ∧
        (newStats stats' stamp now).isWritable = true :=
  ⟨fun h => h.written hr hs hn, fun ⟨_, hall, hwritable⟩ => counts_of_written hr hall hwritable⟩

end Counted

/-- **Counting a failure** leaves the statistics with it, if it can be counted. -/
theorem Usable.updateStats_exec (h : Usable s host.disk loc) (hs : Accepted stamp)
    (hn : Accepted host.clock.read.1) (hdeep : ¬ TooDeep host.disk s.statsPath)
    (hc : Counts (s.statsIn host.disk) operation errorType resultKind) :
    ∃ stats disk after, (s.updateStats stamp operation errorType resultKind).exec host =
        (.ok (), after) ∧
      countAll (countTotal (s.statsIn host.disk)) (places operation errorType resultKind) =
        .ok stats ∧
      Saved s loc statsName (newStats stats stamp host.clock.read.1) host.disk disk ∧
      Became { host with clock := host.clock.read.2 } disk after := by
  obtain ⟨stats, hall, hwritable⟩ := (counts_iff (fun _ hm => readable_stats hm)
    (hs.readable 0).isWritable (hn.readable 0).isWritable).mp hc
  obtain ⟨middle, hstats, log, rfl⟩ := s.stats_exec hdeep rfl
  have hsettled : Settled s ({ host with log, clock := host.clock.read.2 } : Host).disk loc :=
    h.toSettled
  obtain ⟨disk, after, hsave, hsaved, hbecame⟩ :=
    hsettled.save_exec statsName_plain.1 statsName_plain.2 h.nameable_stats hwritable
  refine ⟨stats, disk, after, ?_, hall, hsaved, ?_⟩
  · rw [updateStats_eq, Run.exec_bind_ok hstats, hall]
    exact hsave
  · obtain ⟨log', rfl⟩ := hbecame
    exact ⟨log', rfl⟩

/-- **Counting a failure fails exactly if the statistics are nested too deeply or the failure cannot
be counted.** -/
theorem Usable.updateStats_fails_iff (h : Usable s host.disk loc)
    (operation errorType resultKind : String) (hs : Accepted stamp)
    (hn : Accepted host.clock.read.1) :
    (s.updateStats stamp operation errorType resultKind).FailsAt host ↔
      TooDeep host.disk s.statsPath ∨
        ¬ Counts (s.statsIn host.disk) operation errorType resultKind := by
  by_cases hdeep : TooDeep host.disk s.statsPath
  · refine iff_of_true ?_ (.inl hdeep)
    rw [updateStats_eq, Run.FailsAt.bind_iff]
    exact .inl (s.stats_fails_iff.mpr hdeep)
  by_cases hc : Counts (s.statsIn host.disk) operation errorType resultKind
  · refine iff_of_false ?_ fun hno => hno.elim hdeep fun hno => hno hc
    rintro ⟨fault, hfails⟩
    obtain ⟨stats, disk, after, hexec, -⟩ := h.updateStats_exec hs hn hdeep hc
    rw [hexec] at hfails
    cases hfails
  · refine iff_of_true ?_ (.inr hc)
    obtain ⟨middle, hstats, log, rfl⟩ := s.stats_exec hdeep rfl
    rw [updateStats_eq, Run.FailsAt.bind_iff_second hstats]
    cases hall : countAll (countTotal (s.statsIn host.disk))
        (places operation errorType resultKind) with
    | error trouble => exact ⟨trouble, rfl⟩
    | ok stats =>
      rw [Run.FailsAt.bind_iff_second (Run.exec_ofExcept (.ok stats) _),
        Run.FailsAt.bind_iff_second (readClock_exec _)]
      have hsettled : Settled s ({ host with log, clock := host.clock.read.2 } : Host).disk loc :=
        h.toSettled
      have hunwritable : (newStats stats stamp host.clock.read.1).isWritable = false := by
        rw [Bool.eq_false_iff]
        exact fun hw => hc ((counts_iff (fun _ hm => readable_stats hm)
          (hs.readable 0).isWritable (hn.readable 0).isWritable).mpr ⟨stats, hall, hw⟩)
      exact (hsettled.save_fails_iff statsName_plain.1 statsName_plain.2 h.statsFits
        h.nameable_stats).mpr hunwritable

end ErrorStore

end Dissect
