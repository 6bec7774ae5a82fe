/-
# Texts without blanks around them

Trimming takes away the blanks at both ends, and what stands between them is all that counts
(`trim_surrounded`).  Trimming leaves a text that begins and ends with other characters
(`trimmed_trim`), and such a text is what is left of it with blanks around it (`trim_padded`).

A character that is no blank divides a text into two that are trimmed apart: blanks are taken from
the front of the first and from the end of the second (`trim_append_cons`).
-/
import Dissect.Text.Blank

namespace Dissect.Text

variable {cs before after core : List Char} {c : Char}

/-! ## 1. Blanks -/

/-- Every character is a blank. -/
def Blanks (cs : List Char) : Prop := ∀ c ∈ cs, isBlank c = true

instance (cs : List Char) : Decidable (Blanks cs) :=
  decidable_of_iff (cs.all isBlank = true) List.all_eq_true

theorem Blanks.nil : Blanks [] := by simp [Blanks]

theorem Blanks.append (hb : Blanks before) (ha : Blanks after) : Blanks (before ++ after) := by
  intro c hc
  rcases List.mem_append.mp hc with h | h
  · exact hb c h
  · exact ha c h

theorem Blanks.reverse (h : Blanks cs) : Blanks cs.reverse :=
  fun c hc => h c (List.mem_reverse.mp hc)

/-- What trimming takes from the front are blanks. -/
theorem trimStart_split (cs : List Char) : ∃ gap, Blanks gap ∧ cs = gap ++ trimStart cs :=
  ⟨cs.takeWhile isBlank, fun c hc => List.all_eq_true.mp List.all_takeWhile c hc,
    List.takeWhile_append_dropWhile.symm⟩

/-- What trimming takes from the end are blanks. -/
theorem trimEnd_split (cs : List Char) : ∃ gap, Blanks gap ∧ cs = trimEnd cs ++ gap := by
  obtain ⟨gap, hgap, hcs⟩ := trimStart_split cs.reverse
  refine ⟨gap.reverse, hgap.reverse, ?_⟩
  have hreverse := congrArg List.reverse hcs
  rwa [List.reverse_reverse, List.reverse_append] at hreverse

/-- A text is its trimmed part with blanks around it. -/
theorem trim_split (cs : List Char) :
    ∃ before after, Blanks before ∧ Blanks after ∧ cs = before ++ trim cs ++ after := by
  obtain ⟨before, hbefore, hcs⟩ := trimStart_split cs
  obtain ⟨after, hafter, hstart⟩ := trimEnd_split (trimStart cs)
  refine ⟨before, after, hbefore, hafter, ?_⟩
  rw [List.append_assoc]
  exact hcs.trans (congrArg (before ++ ·) hstart)

/-! ## 2. A character that is no blank -/

/-- Nothing is taken from the front beyond a character that is no blank. -/
theorem trimStart_append_cons (hc : isBlank c = false) :
    trimStart (before ++ c :: after) = trimStart before ++ c :: after := by
  unfold trimStart
  induction before with
  | nil => simp [hc]
  | cons d rest ih =>
    by_cases hd : isBlank d = true
    · simpa [hd] using ih
    · simp [hd]

/-- Nothing is taken from the end beyond a character that is no blank. -/
theorem trimEnd_append_cons (hc : isBlank c = false) :
    trimEnd (before ++ c :: after) = before ++ c :: trimEnd after := by
  have h : trimStart (after.reverse ++ c :: before.reverse) =
      trimStart after.reverse ++ c :: before.reverse := trimStart_append_cons hc
  unfold trimStart at h
  simp [trimEnd, h]

/-- **A character that is no blank divides a text into two that are trimmed apart.** -/
theorem trim_append_cons (hc : isBlank c = false) :
    trim (before ++ c :: after) = trimStart before ++ c :: trimEnd after := by
  rw [trim, trimStart_append_cons hc, trimEnd_append_cons hc]

/-! ## 3. What is left -/

/-- No blank stands at either end. -/
structure Trimmed (cs : List Char) : Prop where
  first : ∀ c, cs.head? = some c → isBlank c = false
  last : ∀ c, cs.getLast? = some c → isBlank c = false

instance (cs : List Char) : Decidable (Trimmed cs) :=
  decidable_of_iff (cs.head?.all (!isBlank ·) = true ∧ cs.getLast?.all (!isBlank ·) = true) <| by
    simp only [Option.all_eq_true, Bool.not_eq_true']
    exact ⟨fun h => ⟨h.1, h.2⟩, fun h => ⟨h.first, h.last⟩⟩

theorem Trimmed.nil : Trimmed [] := ⟨by simp, by simp⟩

theorem trimStart_of_blanks (h : Blanks before) (cs : List Char) :
    trimStart (before ++ cs) = trimStart cs :=
  List.dropWhile_append_of_pos h

theorem trimEnd_of_blanks (h : Blanks after) (cs : List Char) :
    trimEnd (cs ++ after) = trimEnd cs := by
  unfold trimEnd
  rw [List.reverse_append, List.dropWhile_append_of_pos h.reverse]

/-- **Between blanks, a text without blanks at its ends is what trimming leaves.** -/
theorem trim_padded (hb : Blanks before) (ha : Blanks after) (h : Trimmed core) :
    trim (before ++ core ++ after) = core := by
  rw [trim, List.append_assoc, trimStart_of_blanks hb]
  rcases core with _ | ⟨c, rest⟩
  · obtain ⟨gap, hgap, hafter⟩ := trimStart_split after
    have hrest : Blanks (trimStart after) := by
      intro c hc
      refine ha c ?_
      rw [hafter]
      exact List.mem_append_right _ hc
    simpa [trimEnd] using trimEnd_of_blanks hrest []
  · have hstart : trimStart (c :: rest ++ after) = c :: rest ++ after := by
      simp [trimStart, h.first c rfl]
    rw [hstart, trimEnd_of_blanks ha]
    obtain ⟨front, d, hlast⟩ : ∃ front d, c :: rest = front ++ [d] :=
      ⟨_, _, (List.dropLast_concat_getLast (List.cons_ne_nil c rest)).symm⟩
    have hd : isBlank d = false := h.last d (by rw [hlast, List.getLast?_concat])
    rw [hlast, trimEnd_append_cons hd]
    rfl

/-- Trimming leaves no blank at either end. -/
theorem trimmed_trim (cs : List Char) : Trimmed (trim cs) := by
  constructor
  · intro c hc
    obtain ⟨after, hafter, hstart⟩ := trimEnd_split (trimStart cs)
    have hhead : (trimStart cs).head? = some c := by
      rw [hstart, List.head?_append, show (trimEnd (trimStart cs)).head? = some c from hc]
      rfl
    have hstop := List.head?_dropWhile_not isBlank cs
    rw [show (cs.dropWhile isBlank).head? = some c from hhead] at hstop
    exact hstop
  · intro c hc
    have hhead : ((trimStart cs).reverse.dropWhile isBlank).head? = some c := by
      rwa [trim, trimEnd, List.getLast?_reverse] at hc
    have hstop := List.head?_dropWhile_not isBlank (trimStart cs).reverse
    rw [hhead] at hstop
    exact hstop

/-- **Blanks around a text do not count.** -/
theorem trim_surrounded (hb : Blanks before) (ha : Blanks after) (cs : List Char) :
    trim (before ++ cs ++ after) = trim cs := by
  obtain ⟨left, right, hleft, hright, hcs⟩ := trim_split cs
  have hall : before ++ cs ++ after = (before ++ left) ++ trim cs ++ (right ++ after) :=
    calc before ++ cs ++ after
        = before ++ (left ++ trim cs ++ right) ++ after := by rw [← hcs]
      _ = _ := by simp only [List.append_assoc]
  rw [hall, trim_padded (hb.append hleft) (hright.append ha) (trimmed_trim cs)]

theorem trim_trimStart (cs : List Char) : trim (trimStart cs) = trim cs := by
  obtain ⟨gap, hgap, hcs⟩ := trimStart_split cs
  have h := trim_surrounded hgap Blanks.nil (trimStart cs)
  rw [List.append_nil, ← hcs] at h
  exact h.symm

theorem trim_trimEnd (cs : List Char) : trim (trimEnd cs) = trim cs := by
  obtain ⟨gap, hgap, hcs⟩ := trimEnd_split cs
  have h := trim_surrounded Blanks.nil hgap (trimEnd cs)
  rw [List.nil_append, ← hcs] at h
  exact h.symm

/-- Nothing is left exactly of blanks. -/
theorem trim_eq_nil_iff : trim cs = [] ↔ Blanks cs := by
  constructor
  · intro h
    obtain ⟨before, after, hbefore, hafter, hcs⟩ := trim_split cs
    rw [hcs, h, List.append_nil]
    exact hbefore.append hafter
  · intro h
    simpa using trim_padded h Blanks.nil Trimmed.nil

/-! ## 4. Texts -/

/-- Blanks around a text are stripped. -/
theorem strip_surrounded (hb : Blanks before) (ha : Blanks after) (text : String) :
    strip (String.ofList before ++ text ++ String.ofList after) = strip text := by
  have hlist : (String.ofList before ++ text ++ String.ofList after).toList =
      before ++ text.toList ++ after := by simp
  rw [strip, hlist, trim_surrounded hb ha, strip]

/-- A text is stripped once. -/
theorem strip_strip (text : String) : strip (strip text) = strip text := by
  have htrimmed := trim_padded Blanks.nil Blanks.nil (trimmed_trim text.toList)
  rw [List.nil_append, List.append_nil] at htrimmed
  rw [strip, strip, String.toList_ofList, htrimmed]

end Dissect.Text
