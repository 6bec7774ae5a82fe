/-
# Documents that read back unchanged

Reading a text joins the halves of a pair of code units that stand side by side in it, and only
these (`Unpaired.pairedText`).  In a text of characters there are no halves at all (`IsWhole`).

So an object whose keys are different texts of this kind is read with the same keys, and what its
values are read as decides the rest (`rereadMembers_eq`).
-/
import Dissect.Proofs.DocumentTexts

namespace Dissect

/-! ## 1. Texts -/

namespace Text

/-- No character of the text is a single half of a pair of code units.  Single halves are held as the
characters from U+10D800 to U+10DFFF (`loneUnit`), so there is none of these in the text either. -/
def IsWhole (text : String) : Prop := ∀ c ∈ text.toList, loneUnit? c = none

instance (text : String) : Decidable (IsWhole text) :=
  List.decidableBAll (fun c => loneUnit? c = none) text.toList

theorem IsWhole.reread {text : String} (h : IsWhole text) : (Json.str text).reread = .str text := by
  rw [Json.reread, Json.pairedText_of_whole h]

/-- No two characters that stand side by side in the text are the halves of a pair, as which two of the
characters from U+10D800 to U+10DFFF count as well (`loneUnit`). -/
def Unpaired (text : String) : Prop :=
  text.toList.IsChain fun a b => Json.joins? a b = none

instance (text : String) : Decidable (Unpaired text) :=
  inferInstanceAs (Decidable (List.IsChain _ _))

/-- A text without two such characters reads back unchanged. -/
theorem Unpaired.pairedText {text : String} (h : Unpaired text) : Json.pairedText text = text := by
  have hpaired : ∀ cs : List Char, cs.IsChain (fun a b => Json.joins? a b = none) →
      Json.paired cs = cs := by
    intro cs
    unfold Json.paired
    induction cs using Json.joinNeighbours.induct Json.joins? with
    | case1 a b tail c hjoins ih =>
      intro hcs
      rw [(List.isChain_cons_cons.mp hcs).1] at hjoins
      cases hjoins
    | case2 a b tail hjoins ih =>
      intro hcs
      rw [Json.joinNeighbours_kept hjoins, ih (List.isChain_cons_cons.mp hcs).2]
    | case3 cs hshort =>
      intro _
      rcases cs with _ | ⟨a, _ | ⟨b, tail⟩⟩
      · rfl
      · rfl
      · exact absurd rfl (hshort a b tail)
  rw [Json.pairedText, hpaired _ h, String.ofList_toList]

/-- Halves that stand alone are all that could be joined. -/
theorem IsWhole.unpaired {text : String} (h : IsWhole text) : Unpaired text := by
  refine List.Pairwise.isChain (List.pairwise_iff_forall_sublist.mpr fun {a b} hsub => ?_)
  have ha : loneUnit? a = none := h a (hsub.subset List.mem_cons_self)
  simp [Json.joins?, Json.highUnit?, ha]

end Text

namespace Json

/-- A text in ASCII reads back unchanged. -/
theorem pairedText_of_ascii {text : String} (h : ∀ c ∈ text.toList, c.toNat < 0x80) :
    pairedText text = text := by
  refine pairedText_of_whole fun c hc => ?_
  have hlow : c.toNat ≤ Text.loneOffset := Nat.le_of_lt (Nat.lt_trans (h c hc) (by decide))
  unfold Text.loneUnit?
  rw [Nat.sub_eq_zero_of_le hlow]
  rfl

theorem reread_ofText? {text : Option String} (h : ∀ t ∈ text, Text.IsWhole t) :
    (Json.ofText? text).reread = Json.ofText? text := by
  cases text with
  | none => rfl
  | some t => exact (h t rfl).reread

/-! ## 2. Objects -/

theorem setMember_of_not_mem {key : String} {value : Json} {members : List (String × Json)}
    (h : key ∉ members.map Prod.fst) : setMember key value members = members ++ [(key, value)] := by
  unfold setMember
  induction members with
  | nil => rfl
  | cons first rest ih =>
    rw [List.map_cons, List.mem_cons, not_or] at h
    rw [Assoc.set, if_neg (by simpa using h.1), ih h.2, List.cons_append]

theorem rereadMembers_eq {done members : List (String × Json)}
    (hkeys : ∀ member ∈ members, pairedText member.1 = member.1)
    (hnodup : ((done ++ members).map Prod.fst).Nodup) :
    rereadMembers done members = done ++ members.map fun member => (member.1, member.2.reread) := by
  induction members generalizing done with
  | nil => rw [rereadMembers, List.map_nil, List.append_nil]
  | cons first rest ih =>
    obtain ⟨key, value⟩ := first
    have hkey : pairedText key = key := hkeys (key, value) List.mem_cons_self
    have hnew : key ∉ done.map Prod.fst := by
      rw [List.map_append, List.nodup_append] at hnodup
      exact fun hm => hnodup.2.2 key hm key (by simp) rfl
    rw [rereadMembers, hkey, setMember_of_not_mem hnew,
      ih (fun member hm => hkeys member (List.mem_cons_of_mem _ hm)) ?_]
    · simp
    · simpa using hnodup

/-- **An object whose keys are different texts in ASCII** is read with the same keys. -/
theorem reread_obj {members : List (String × Json)}
    (hkeys : ∀ key ∈ members.map Prod.fst, ∀ c ∈ key.toList, c.toNat < 0x80)
    (hnodup : (members.map Prod.fst).Nodup) :
    (Json.obj members).reread = .obj (members.map fun member => (member.1, member.2.reread)) := by
  rw [reread, rereadMembers_eq (fun member hm =>
    pairedText_of_ascii (hkeys _ (List.mem_map_of_mem hm))) (by simpa using hnodup)]
  rfl

end Json

end Dissect
