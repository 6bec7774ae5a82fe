/-
# Keeping the greatest

A list to which items are added one by one, and which is cut back each time to a number of items by
taking the least away, holds at any time the greatest of all items so far (`Greatest.added_few`,
`Greatest.added_many`).  Items are compared by a key, and where that is equal by the order in which
they came.

The list itself is kept in falling order of the key.  It is cut by sorting it to rising order, dropping
the first items, and sorting back; that this keeps equal items in the order in which they came is due
to both sorts being stable (`rising_ties`, `falling_ties`).

Which items these are is settled by the items alone (`Greatest.unique`).  Where the keys rise from item
to item they are the last ones, the newest first (`Greatest.eq_last`).
-/
import Dissect.Sorting
import Mathlib.Data.List.Nodup
import Mathlib.Data.List.Perm.Basic
import Mathlib.Order.Lattice

namespace Dissect.Retention

variable {α κ : Type} [LinearOrder κ] {key : α → κ}

/-! ## 1. The order in which items came -/

/-- The first item comes before the second in a list. -/
def Before (items : List α) (a b : α) : Prop := [a, b].Sublist items

theorem Before.append {items : List α} {a b : α} (h : Before items a b) (more : List α) :
    Before (items ++ more) a b :=
  h.trans (List.sublist_append_left _ _)

theorem before_last {items : List α} {a : α} (h : a ∈ items) (b : α) :
    Before (items ++ [b]) a b :=
  (List.singleton_sublist.mpr h).append (List.Sublist.refl [b])

/-- Of two different items one comes before the other. -/
theorem before_or {items : List α} {a b : α} (ha : a ∈ items) (hb : b ∈ items) (hne : a ≠ b) :
    Before items a b ∨ Before items b a := by
  unfold Before
  induction items with
  | nil => cases ha
  | cons c rest ih =>
    rcases List.mem_cons.mp ha with rfl | ha
    · rcases List.mem_cons.mp hb with rfl | hb
      · exact absurd rfl hne
      · exact .inl ((List.singleton_sublist.mpr hb).cons_cons a)
    · rcases List.mem_cons.mp hb with hself | hb
      · exact .inr (hself ▸ (List.singleton_sublist.mpr ha).cons_cons b)
      · exact (ih ha hb).imp (List.Sublist.cons c) (List.Sublist.cons c)

theorem not_before_both {items : List α} (h : items.Nodup) {a b : α} (hab : Before items a b) :
    ¬ Before items b a := by
  intro hba
  unfold Before at hab hba
  induction items with
  | nil => cases hab
  | cons c rest ih =>
    obtain ⟨hnot, hnodup⟩ := List.nodup_cons.mp h
    cases hab with
    | cons _ hab =>
      cases hba with
      | cons _ hba =>
        exact ih hnodup hab hba
      | cons_cons _ hba => exact hnot (hab.subset (by simp))
    | cons_cons _ hab =>
      cases hba with
      | cons _ hba => exact hnot (hba.subset (by simp))
      | cons_cons _ hba => exact hnot (hab.subset (by simp))

/-! ## 2. Sorting by the key -/

/-- The items in rising order of their keys. -/
def rising (key : α → κ) (items : List α) : List α :=
  items.mergeSort fun a b => !decide (key b < key a)

/-- The items in falling order of their keys. -/
def falling (key : α → κ) (items : List α) : List α := (rising key items.reverse).reverse

theorem rising_perm (key : α → κ) (items : List α) : (rising key items).Perm items :=
  List.mergeSort_perm _ _

theorem falling_perm (key : α → κ) (items : List α) : (falling key items).Perm items :=
  (List.reverse_perm _).trans ((rising_perm key _).trans (List.reverse_perm _))

theorem le_iff (a b : α) : (!decide (key b < key a)) = true ↔ key a ≤ key b := by
  rw [Bool.not_eq_true', decide_eq_false_iff_not, not_lt]

theorem rising_sorted (key : α → κ) (items : List α) :
    (rising key items).Pairwise fun a b => key a ≤ key b := by
  refine (List.pairwise_mergeSort (fun a b c hab hbc => ?_) (fun a b => ?_) items).imp
    fun h => (le_iff _ _).mp h
  · rw [le_iff] at hab hbc ⊢
    exact le_trans hab hbc
  · rw [Bool.or_eq_true, le_iff, le_iff]
    exact le_total _ _

/-- Sorting keeps the order of items that are in order already. -/
theorem before_rising {items : List α} {a b : α} (h : Before items a b) (hle : key a ≤ key b) :
    Before (rising key items) a b := by
  refine List.pair_sublist_mergeSort (fun a b c hab hbc => ?_) (fun a b => ?_)
    ((le_iff a b).mpr hle) h
  · rw [le_iff] at hab hbc ⊢
    exact le_trans hab hbc
  · rw [Bool.or_eq_true, le_iff, le_iff]
    exact le_total _ _

/-- **Sorting is stable**: items of one key stay as they were. -/
theorem rising_ties {R : α → α → Prop} {items : List α} (hnodup : items.Nodup)
    (hties : items.Pairwise fun a b => key a = key b → R a b) :
    (rising key items).Pairwise fun a b => key a < key b ∨ key a = key b ∧ R a b := by
  have hperm := rising_perm key items
  rw [List.pairwise_iff_forall_sublist]
  intro a b hab
  have hle := List.pairwise_iff_forall_sublist.mp (rising_sorted key items) hab
  rcases lt_or_eq_of_le hle with hlt | heq
  · exact .inl hlt
  refine .inr ⟨heq, ?_⟩
  have hnodup' : (rising key items).Nodup := hperm.nodup_iff.mpr hnodup
  have hne : a ≠ b := List.pairwise_iff_forall_sublist.mp hnodup' hab
  have ha : a ∈ items := hperm.subset (hab.subset (by simp))
  have hb : b ∈ items := hperm.subset (hab.subset (by simp))
  rcases before_or ha hb hne with h | h
  · exact List.pairwise_iff_forall_sublist.mp hties h heq
  · exact absurd (before_rising h (le_of_eq heq.symm)) (not_before_both hnodup' hab)

theorem falling_ties {R : α → α → Prop} {items : List α} (hnodup : items.Nodup)
    (hties : items.Pairwise fun a b => key a = key b → R a b) :
    (falling key items).Pairwise fun a b => key b < key a ∨ key a = key b ∧ R a b := by
  unfold falling
  rw [List.pairwise_reverse]
  have hreverse : items.reverse.Pairwise fun a b => key a = key b → R b a := by
    rw [List.pairwise_reverse]
    exact hties.imp fun h heq => h heq.symm
  refine (rising_ties (List.nodup_reverse.mpr hnodup) hreverse).imp fun h => ?_
  exact h.imp_right fun ⟨heq, hr⟩ => ⟨heq.symm, hr⟩

/-! ## 3. The greatest items -/

/-- The first item is less than the second: its key is less, or it is equal and the item came
before. -/
def Less (key : α → κ) (items : List α) (a b : α) : Prop :=
  key a < key b ∨ key a = key b ∧ Before items a b

/-- **A list holds the given number of the greatest of some items**, or all if there are fewer, each
once, in falling order of their keys, and those of one key in the order in which they came. -/
structure Greatest (key : α → κ) (count : ℕ) (items listed : List α) : Prop where
  subset : listed ⊆ items
  nodup : listed.Nodup
  length : listed.length = min count items.length
  greatest : ∀ a ∈ items, a ∉ listed → ∀ b ∈ listed, Less key items a b
  sorted : listed.Pairwise fun a b => key b < key a ∨ key a = key b ∧ Before items a b

theorem Greatest.nil (key : α → κ) (count : ℕ) : Greatest key count [] [] :=
  ⟨List.Subset.refl _, List.nodup_nil, by simp, by simp, List.Pairwise.nil⟩

/-- An item that only one of two lists of the greatest holds would be less than one that only the other
holds, and the other way round. -/
theorem Greatest.subset_of {count : ℕ} {items listed listed' : List α} (hnodup : items.Nodup)
    (h : Greatest key count items listed) (h' : Greatest key count items listed') :
    listed ⊆ listed' := by
  intro a ha
  refine Classical.byContradiction fun hmissing => ?_
  obtain ⟨b, hb, hother⟩ : ∃ b ∈ listed', b ∉ listed := by
    refine Classical.byContradiction fun hno => ?_
    have hsub : listed' ⊆ listed := fun b hb =>
      Classical.byContradiction fun hother => hno ⟨b, hb, hother⟩
    have hperm := (List.subperm_of_subset h'.nodup hsub).perm_of_length_le
      (Nat.le_of_eq (h.length.trans h'.length.symm))
    exact hmissing (hperm.mem_iff.mpr ha)
  rcases h'.greatest a (h.subset ha) hmissing b hb with hab | ⟨hab, hbefore⟩
  · rcases h.greatest b (h'.subset hb) hother a ha with hba | ⟨hba, -⟩
    · exact lt_asymm hab hba
    · exact ne_of_gt hab hba
  · rcases h.greatest b (h'.subset hb) hother a ha with hba | ⟨-, hbefore'⟩
    · exact ne_of_gt hba hab
    · exact not_before_both hnodup hbefore hbefore'

/-- **There is only one list of the greatest.** -/
theorem Greatest.unique {count : ℕ} {items listed listed' : List α} (hnodup : items.Nodup)
    (h : Greatest key count items listed) (h' : Greatest key count items listed') :
    listed = listed' := by
  have hperm : listed.Perm listed' := (List.perm_ext_iff_of_nodup h.nodup h'.nodup).mpr fun a =>
    ⟨fun ha => h.subset_of hnodup h' ha, fun ha => h'.subset_of hnodup h ha⟩
  refine hperm.eq_of_pairwise (fun a b _ _ hab hba => ?_) h.sorted h'.sorted
  rcases hab with hab | ⟨hab, hbefore⟩
  · rcases hba with hba | ⟨hba, -⟩
    · exact absurd hab (lt_asymm hba)
    · exact absurd hba (ne_of_lt hab)
  · rcases hba with hba | ⟨-, hbefore'⟩
    · exact absurd hab (ne_of_lt hba)
    · exact absurd hbefore' (not_before_both hnodup hbefore)

/-- **Where every item is greater than those that came before it, the greatest are the last**, the last
of all first. -/
theorem Greatest.eq_last {count : ℕ} {items listed : List α}
    (hrising : items.Pairwise fun a b => key a < key b) (h : Greatest key count items listed) :
    listed = items.reverse.take count := by
  have hfalling : items.reverse.Pairwise fun a b => key b < key a := List.pairwise_reverse.mpr hrising
  have hnodup : items.Nodup := hrising.imp fun hlt heq => ne_of_lt hlt (congrArg key heq)
  refine h.unique hnodup ⟨fun a ha => ?_, ?_, by simp, fun a ha hmissing b hb => ?_, ?_⟩
  · exact List.mem_reverse.mp (List.mem_of_mem_take ha)
  · exact (List.take_sublist _ _).nodup (List.nodup_reverse.mpr hnodup)
  · rw [← List.take_append_drop count items.reverse, List.pairwise_append] at hfalling
    have hdropped : a ∈ items.reverse.drop count := by
      have hmem := List.mem_reverse.mpr ha
      rw [← List.take_append_drop count items.reverse, List.mem_append] at hmem
      exact hmem.resolve_left hmissing
    exact .inl (hfalling.2.2 b hb a hdropped)
  · exact (hfalling.sublist (List.take_sublist _ _)).imp .inl

/-- The list after one more item has been added, and after the least have been dropped. -/
def cut (key : α → κ) (excess : ℕ) (items : List α) : List α :=
  falling key ((rising key items).drop excess)

theorem cut_subset (key : α → κ) (excess : ℕ) (items : List α) : cut key excess items ⊆ items :=
  fun _ h => (rising_perm key items).subset
    (List.mem_of_mem_drop ((falling_perm key _).subset h))

theorem length_cut (key : α → κ) (excess : ℕ) (items : List α) :
    (cut key excess items).length = items.length - excess := by
  rw [cut, (falling_perm key _).length_eq, List.length_drop, (rising_perm key _).length_eq]

/-- What is dropped is less than what is kept. -/
theorem less_of_cut {R : α → α → Prop} {excess : ℕ} {items : List α} (hnodup : items.Nodup)
    (hties : items.Pairwise fun a b => key a = key b → R a b) {a b : α} (ha : a ∈ items)
    (hdropped : a ∉ cut key excess items) (hb : b ∈ cut key excess items) :
    key a < key b ∨ key a = key b ∧ R a b := by
  have hsorted := rising_ties hnodup hties
  rw [← List.take_append_drop excess (rising key items), List.pairwise_append] at hsorted
  have hkept : ∀ c, c ∈ cut key excess items ↔ c ∈ (rising key items).drop excess := fun c =>
    (falling_perm key _).mem_iff
  have htaken : a ∈ (rising key items).take excess := by
    have hmem : a ∈ rising key items := (rising_perm key items).mem_iff.mpr ha
    rw [← List.take_append_drop excess (rising key items)] at hmem
    exact (List.mem_append.mp hmem).resolve_right fun h => hdropped ((hkept a).mpr h)
  exact hsorted.2.2 a htaken b ((hkept b).mp hb)

theorem cut_sorted {R : α → α → Prop} (excess : ℕ) {items : List α} (hnodup : items.Nodup)
    (hties : items.Pairwise fun a b => key a = key b → R a b) :
    (cut key excess items).Nodup ∧
      (cut key excess items).Pairwise fun a b => key b < key a ∨ key a = key b ∧ R a b := by
  have hrising := rising_ties hnodup hties
  have hdrop : ((rising key items).drop excess).Nodup :=
    (List.drop_sublist _ _).nodup ((rising_perm key items).nodup_iff.mpr hnodup)
  refine ⟨(falling_perm key _).nodup_iff.mpr hdrop, falling_ties hdrop ?_⟩
  refine (hrising.sublist (List.drop_sublist _ _)).imp fun h heq => ?_
  exact (h.resolve_left fun hlt => absurd heq (ne_of_lt hlt)).2

/-! ## 4. One more item -/

section Added

variable {count : ℕ} {items listed : List α} {r : α}

theorem subset_added (h : listed ⊆ items) : listed ++ [r] ⊆ items ++ [r] := fun _ ha =>
  List.mem_append.mpr ((List.mem_append.mp ha).imp_left fun hm => h hm)

/-- Where not all items are listed, as many are as may be. -/
theorem Greatest.length_of_missing (h : Greatest key count items listed) {a : α} (ha : a ∈ items)
    (hmissing : a ∉ listed) : listed.length = count := by
  have hless : listed.length < items.length := by
    refine Nat.lt_of_not_le fun hle => hmissing ?_
    exact (List.subperm_of_subset h.nodup h.subset).perm_of_length_le hle |>.mem_iff.mpr ha
  have hlength := h.length
  omega

theorem Greatest.nodup_added (h : Greatest key count items listed) (hr : r ∉ items) :
    (listed ++ [r]).Nodup :=
  List.nodup_append.mpr ⟨h.nodup, List.nodup_singleton r, fun _ ha _ hb heq =>
    hr (List.mem_singleton.mp hb ▸ heq ▸ h.subset ha)⟩

/-- With the new item at its end the list still has the items of one key in order. -/
theorem Greatest.ties_added (h : Greatest key count items listed) :
    (listed ++ [r]).Pairwise fun a b => key a = key b → Before (items ++ [r]) a b := by
  refine List.pairwise_append.mpr ⟨h.sorted.imp fun hab heq => ?_, List.pairwise_singleton _ _,
    fun a ha b hb _ => ?_⟩
  · exact (hab.resolve_left fun hlt => absurd heq (ne_of_gt hlt)).2.append _
  · rw [List.mem_singleton.mp hb]
    exact before_last (h.subset ha) r

theorem Less.append {a b : α} (h : Less key items a b) (more : List α) :
    Less key (items ++ more) a b :=
  h.imp_right fun ⟨heq, hbefore⟩ => ⟨heq, hbefore.append more⟩

/-- **The list with one more item**, where there is room for it. -/
theorem Greatest.added_few (h : Greatest key count items listed) (hr : r ∉ items)
    (hfew : listed.length < count) :
    Greatest key count (items ++ [r]) (falling key (listed ++ [r])) := by
  have hperm := falling_perm key (listed ++ [r])
  have hall : ∀ a ∈ items, a ∈ listed := fun a ha =>
    Classical.byContradiction fun hmissing => by
      rw [h.length_of_missing ha hmissing] at hfew
      exact Nat.lt_irrefl _ hfew
  refine ⟨fun a ha => ?_, hperm.nodup_iff.mpr (h.nodup_added hr), ?_, fun a ha hmissing => ?_,
    falling_ties (h.nodup_added hr) h.ties_added⟩
  · exact subset_added h.subset (hperm.subset ha)
  · have hlength := h.length
    rw [hperm.length_eq, List.length_append, List.length_append, List.length_singleton]
    omega
  · refine absurd (hperm.mem_iff.mpr ?_) hmissing
    rw [List.mem_append] at ha ⊢
    exact ha.imp_left (hall a)

/-- A longer list of different items has one that the other lacks. -/
theorem exists_lacking {long short : List α} (hnodup : long.Nodup) (h : short.length < long.length) :
    ∃ c ∈ long, c ∉ short := by
  refine Classical.byContradiction fun hno => Nat.not_le.mpr h ?_
  have hsubset : long ⊆ short := fun c hc =>
    Classical.byContradiction fun hlacks => hno ⟨c, hc, hlacks⟩
  exact (List.subperm_of_subset hnodup hsubset).length_le

/-- **The list with one more item**, cut back to the number that it may have. -/
theorem Greatest.added_many (h : Greatest key count items listed) (hr : r ∉ items) {excess : ℕ}
    (hexcess : listed.length + 1 - excess = min count (listed.length + 1)) :
    Greatest key count (items ++ [r]) (cut key excess (falling key (listed ++ [r]))) := by
  have hperm := falling_perm key (listed ++ [r])
  have hnodup : (falling key (listed ++ [r])).Nodup := hperm.nodup_iff.mpr (h.nodup_added hr)
  have hties : (falling key (listed ++ [r])).Pairwise fun a b =>
      key a = key b → Before (items ++ [r]) a b :=
    (falling_ties (h.nodup_added hr) h.ties_added).imp fun hab heq =>
      (hab.resolve_left fun hlt => absurd heq (ne_of_gt hlt)).2
  obtain ⟨hcut, hsorted⟩ := cut_sorted excess hnodup hties
  have hlength : (cut key excess (falling key (listed ++ [r]))).length =
      min count (listed.length + 1) := by
    rw [length_cut, hperm.length_eq, List.length_append, List.length_singleton, hexcess]
  refine ⟨fun a ha => ?_, hcut, ?_, fun a ha hmissing b hb => ?_, hsorted⟩
  · exact subset_added h.subset (hperm.subset (cut_subset key _ _ ha))
  · have hbefore := h.length
    rw [hlength, List.length_append, List.length_singleton]
    omega
  by_cases hthere : a ∈ falling key (listed ++ [r])
  · exact less_of_cut hnodup hties hthere hmissing hb
  -- the item has been missing before, and so the list was full
  rw [hperm.mem_iff, List.mem_append, not_or] at hthere
  have hitem : a ∈ items := (List.mem_append.mp ha).resolve_right hthere.2
  rcases List.mem_append.mp (hperm.subset (cut_subset key _ _ hb)) with hb' | hb'
  · exact (h.greatest a hitem hthere.1 b hb').append _
  -- some listed item has made room for the new one
  obtain rfl := List.mem_singleton.mp hb'
  have hfull := h.length_of_missing hitem hthere.1
  have hshorter : (cut key excess (falling key (listed ++ [b]))).length < (listed ++ [b]).length := by
    rw [hlength, List.length_append, List.length_singleton]
    omega
  obtain ⟨c, hc, hdropped⟩ := exists_lacking (h.nodup_added hr) hshorter
  have hlisted : c ∈ listed := by
    refine (List.mem_append.mp hc).resolve_right fun hself => hdropped ?_
    rw [List.mem_singleton.mp hself]
    exact hb
  have hca := h.greatest a hitem hthere.1 c hlisted
  have hcb := less_of_cut hnodup hties (hperm.mem_iff.mpr hc) hdropped hb
  have hle : key a ≤ key b := by
    have hac : key a ≤ key c := hca.elim le_of_lt fun heq => le_of_eq heq.1
    have hcb' : key c ≤ key b := hcb.elim le_of_lt fun heq => le_of_eq heq.1
    exact le_trans hac hcb'
  exact (lt_or_eq_of_le hle).imp_right fun heq => ⟨heq, before_last hitem b⟩

end Added

end Dissect.Retention
