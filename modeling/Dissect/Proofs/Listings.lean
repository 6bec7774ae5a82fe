/-
# Manifests that list records

A manifest lists records if its entries show them, one each and in their order (`Lists`).  Sorting the
entries is then sorting the records by the numbers that their time stamps stand for, since each entry
has the time stamp of its record (`Lists.newestFirst`, `Lists.oldestFirst`), and writing the manifest
and reading it again lists the same records (`Lists.reread`).
-/
import Dissect.Proofs.ReadRecords
import Dissect.Proofs.Retention
import Mathlib.Data.List.Forall2

namespace Dissect

open Retention (rising falling cut)

/-- Lists whose items correspond are sorted alike, if the orders agree on items that correspond. -/
theorem forall₂_mergeSort {α β : Type} {R : α → β → Prop} {le : α → α → Bool} {le' : β → β → Bool}
    {items : List α} {others : List β} (h : List.Forall₂ R items others)
    (hle : ∀ a b a' b', R a a' → R b b' → le a b = le' a' b') :
    List.Forall₂ R (items.mergeSort le) (others.mergeSort le') := by
  obtain ⟨hlength, hzip⟩ := List.forall₂_iff_zip.mp h
  have hmem : ∀ p ∈ items.zip others, R p.1 p.2 := fun p hp => hzip hp
  have hitems : (items.zip others).map Prod.fst = items := List.map_fst_zip (Nat.le_of_eq hlength)
  have hothers : (items.zip others).map Prod.snd = others :=
    List.map_snd_zip (Nat.le_of_eq hlength.symm)
  -- both lists come from sorting the pairs
  generalize items.zip others = pairs at hmem hitems hothers
  have hfirst : (pairs.mergeSort fun p q => le p.1 q.1).map Prod.fst = items.mergeSort le := by
    rw [List.map_mergeSort (f := Prod.fst) (s := le) fun p _ q _ => rfl, hitems]
  have hsecond : (pairs.mergeSort fun p q => le p.1 q.1).map Prod.snd = others.mergeSort le' := by
    rw [List.map_mergeSort fun p hp q hq => hle _ _ _ _ (hmem p hp) (hmem q hq), hothers]
  rw [← hfirst, ← hsecond, List.forall₂_map_left_iff, List.forall₂_map_right_iff, List.forall₂_same]
  exact fun p hp => hmem p ((List.mergeSort_perm _ _).subset hp)

/-- Items that correspond to the same item correspond. -/
theorem forall₂_through {α β γ : Type} {R : α → β → Prop} {S : β → γ → Prop} {items : List α}
    {middle : List β} {others : List γ} (h : List.Forall₂ R items middle)
    (h' : List.Forall₂ S middle others) :
    List.Forall₂ (fun a c => ∃ b, R a b ∧ S b c) items others := by
  induction h generalizing others with
  | nil =>
    cases h'
    exact .nil
  | cons hr _ ih =>
    cases h' with
    | cons hs hrest => exact .cons ⟨_, hr, hs⟩ (ih hrest)

theorem exists_of_mem_right {α β : Type} {R : α → β → Prop} {items : List α} {others : List β}
    (h : List.Forall₂ R items others) {b : β} (hb : b ∈ others) : ∃ a ∈ items, R a b := by
  induction h with
  | nil => cases hb
  | cons hr _ ih =>
    rcases List.mem_cons.mp hb with rfl | hb
    · exact ⟨_, List.mem_cons_self, hr⟩
    · obtain ⟨a, ha, hr⟩ := ih hb
      exact ⟨a, List.mem_cons_of_mem _ ha, hr⟩

/-- Items that correspond to items in order are in order. -/
theorem pairwise_of_forall₂ {α β : Type} {R : α → β → Prop} {lt : α → α → Prop} {lt' : β → β → Prop}
    {items : List α} {others : List β} (h : List.Forall₂ R items others)
    (hlt : ∀ a b a' b', R a a' → R b b' → lt a b → lt' a' b') (hitems : items.Pairwise lt) :
    others.Pairwise lt' := by
  induction h with
  | nil => exact .nil
  | cons hr hrest ih =>
    obtain ⟨hfirst, hlater⟩ := List.pairwise_cons.mp hitems
    refine List.pairwise_cons.mpr ⟨fun b' hb' => ?_, ih hlater⟩
    obtain ⟨b, hb, hrb⟩ := exists_of_mem_right hrest hb'
    exact hlt _ _ _ _ hr hrb (hfirst b hb)

namespace ErrorStore

/-- The number by which records are ordered. -/
def stampOf (r : ErrorRecord) : ℚ := r.timestamp.toRat

/-- The entry shows a record that the store has made. -/
structure Shown (r : ErrorRecord) (e : ManifestEntry) : Prop where
  made : ∃ n, Made n r
  shows : ManifestEntry.Shows r e

namespace Shown

variable {r r' : ErrorRecord} {e e' : ManifestEntry} (h : Shown r e)
include h

theorem stamp : e.stamp = r.timestamp := by
  obtain ⟨n, hn⟩ := h.made
  exact h.shows.stamp hn.isFinite

theorem id : e.id = r.errorId := by
  obtain ⟨n, hn⟩ := h.made
  exact h.shows.id hn.reread_id

theorem isOrdered : e.stamp.isOrdered = true := by
  obtain ⟨n, hn⟩ := h.made
  rw [h.stamp]
  exact hn.isFinite.isOrdered

theorem olderThan (h' : Shown r' e') :
    ManifestEntry.olderThan e e' = decide (stampOf r < stampOf r') := by
  obtain ⟨n, hn⟩ := h.made
  obtain ⟨m, hm⟩ := h'.made
  unfold ManifestEntry.olderThan stampOf
  rw [h.stamp, h'.stamp, Bool.eq_iff_iff, Json.numberLt_iff hn.isFinite hm.isFinite,
    decide_eq_true_iff]

end Shown

/-- The entries show the records, one each and in their order. -/
def Lists (listed : List ErrorRecord) (entries : List ManifestEntry) : Prop :=
  List.Forall₂ Shown listed entries

namespace Lists

variable {listed : List ErrorRecord} {entries : List ManifestEntry} {r : ErrorRecord}
  {e : ManifestEntry}

theorem mem_right (h : Lists listed entries) (he : e ∈ entries) : ∃ r ∈ listed, Shown r e :=
  exists_of_mem_right h he

theorem mem_left (h : Lists listed entries) (hr : r ∈ listed) : ∃ e ∈ entries, Shown r e := by
  have hflip : List.Forall₂ (flip Shown) entries listed := h.flip
  exact exists_of_mem_right hflip hr

theorem append (h : Lists listed entries) (hshown : Shown r e) :
    Lists (listed ++ [r]) (entries ++ [e]) :=
  List.rel_append h (.cons hshown .nil)

theorem reverse (h : Lists listed entries) : Lists listed.reverse entries.reverse :=
  List.forall₂_reverse_iff.mpr h

/-- **The entries from the oldest to the newest** list the records in rising order. -/
theorem oldestFirst (h : Lists listed entries) :
    Lists (rising stampOf listed) (ManifestEntry.oldestFirst entries) := by
  have hordered : entries.all (fun e => e.stamp.isOrdered) = true := by
    rw [List.all_eq_true]
    intro e he
    obtain ⟨r, -, hshown⟩ := h.mem_right he
    exact hshown.isOrdered
  unfold ManifestEntry.oldestFirst Sorting.sort rising
  rw [if_pos hordered]
  refine forall₂_mergeSort h fun a b a' b' ha hb => ?_
  rw [hb.olderThan ha]

/-- **The entries from the newest to the oldest** list the records in falling order. -/
theorem newestFirst (h : Lists listed entries) :
    Lists (falling stampOf listed) (ManifestEntry.newestFirst entries) :=
  h.reverse.oldestFirst.reverse

/-- **The manifest lists the same records when it is read again.** -/
theorem reread (h : Lists listed entries) : Lists listed (rereadEntries entries) := by
  have heq : rereadEntries entries = entries.map ManifestEntry.reread := by
    refine rereadEntries_eq fun e he => ?_
    obtain ⟨r, -, ⟨n, hn⟩, hshows⟩ := h.mem_right he
    exact ⟨n, r, hn, hshows⟩
  rw [heq]
  exact List.forall₂_map_right_iff.mpr (h.imp fun r e hshown => ⟨hshown.made, hshown.shows.reread⟩)

/-- The entries that are removed from a manifest list the oldest records. -/
theorem pruned (s : ErrorStore) (h : Lists listed entries) :
    Lists ((rising stampOf listed).take (s.excess entries)) (s.pruned entries) :=
  List.forall₂_take _ h.oldestFirst

/-- The entries that are left of a manifest list the records that are left. -/
theorem kept (s : ErrorStore) (h : Lists listed entries) :
    Lists (cut stampOf (s.excess entries) listed) (s.kept entries) := by
  have hdrop : Lists ((rising stampOf listed).drop (s.excess entries))
      ((ManifestEntry.oldestFirst entries).drop (s.excess entries)) :=
    List.forall₂_drop _ h.oldestFirst
  exact hdrop.newestFirst

end Lists

end ErrorStore

end Dissect
