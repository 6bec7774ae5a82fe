/-
# Steps that may fail

What a composed step comes to is told by its parts: it succeeds as both of its parts do, and fails as
one of them does.  A step that is taken for each item of a list succeeds exactly if it does for every
item.
-/
namespace Dissect

variable {α β ε : Type}

/-! ## 1. One step after another -/

/-- A step that succeeds has a first part that does. -/
theorem ok_of_bind {first : Except ε α} {next : α → Except ε β} {b : β}
    (h : first >>= next = .ok b) : ∃ a, first = .ok a ∧ next a = .ok b := by
  cases first with
  | error e => cases h
  | ok a => exact ⟨a, rfl, h⟩

/-- A failure of two steps is one of the first, or of the second after the first. -/
theorem error_of_bind {first : Except ε α} {next : α → Except ε β} {e : ε}
    (h : first >>= next = .error e) :
    first = .error e ∨ ∃ a, first = .ok a ∧ next a = .error e := by
  cases first with
  | error trouble =>
    cases h
    exact .inl rfl
  | ok a => exact .inr ⟨a, rfl, h⟩

/-! ## 2. A step for each item of a list -/

/-- What comes of the items comes of one of them. -/
theorem mem_of_mapM {f : α → Except ε β} : ∀ {items : List α} {results : List β} {b : β},
    items.mapM f = .ok results → b ∈ results → ∃ a ∈ items, f a = .ok b
  | [], _, _, h, hb => by
    rw [List.mapM_nil] at h
    cases h
    cases hb
  | a :: rest, _, b, h, hb => by
    rw [List.mapM_cons] at h
    obtain ⟨first, hfirst, h⟩ := ok_of_bind h
    obtain ⟨others, hothers, h⟩ := ok_of_bind h
    cases h
    rcases List.mem_cons.mp hb with rfl | hb
    · exact ⟨a, List.mem_cons_self, hfirst⟩
    · obtain ⟨x, hx, hfx⟩ := mem_of_mapM hothers hb
      exact ⟨x, List.mem_cons_of_mem _ hx, hfx⟩

/-- Making something of each item of a list fails exactly if it fails for one of them. -/
theorem mapM_fails_iff {f : α → Except ε β} {items : List α} :
    (∃ e, items.mapM f = .error e) ↔ ∃ a ∈ items, ∃ e, f a = .error e := by
  induction items with
  | nil =>
    constructor
    · rintro ⟨_, h⟩
      cases h
    · rintro ⟨_, h, -⟩
      cases h
  | cons a rest ih =>
    simp only [List.mapM_cons, List.mem_cons, exists_eq_or_imp]
    rw [← ih]
    cases ha : f a with
    | error e => exact ⟨fun _ => .inl ⟨e, rfl⟩, fun _ => ⟨e, rfl⟩⟩
    | ok b =>
      cases hrest : rest.mapM f with
      | error e => exact ⟨fun _ => .inr ⟨e, rfl⟩, fun _ => ⟨e, rfl⟩⟩
      | ok bs =>
        constructor
        · rintro ⟨_, h⟩
          cases h
        · rintro (⟨_, h⟩ | ⟨_, h⟩) <;> cases h

theorem mapM_single (items : List α) :
    items.mapM (fun item => (Except.ok [item] : Except ε (List α))) =
      .ok (items.map fun item => [item]) := by
  induction items with
  | nil => rfl
  | cons item rest ih =>
    rw [List.mapM_cons, ih]
    rfl

theorem mem_of_filterAuxM {p : α → Except ε Bool} : ∀ {items kept all : List α} {a : α},
    items.filterAuxM p kept = .ok all → a ∈ all → a ∈ kept ∨ a ∈ items ∧ p a = .ok true
  | [], _, _, _, h, ha => by
    cases h
    exact .inl ha
  | item :: rest, kept, _, a, h, ha => by
    unfold List.filterAuxM at h
    obtain ⟨keep, hkeep, h⟩ := ok_of_bind h
    rcases mem_of_filterAuxM h ha with hold | ⟨hrest, hp⟩
    · cases keep with
      | false => exact .inl hold
      | true =>
        rcases List.mem_cons.mp hold with rfl | hold
        · exact .inr ⟨List.mem_cons_self, hkeep⟩
        · exact .inl hold
    · exact .inr ⟨List.mem_cons_of_mem _ hrest, hp⟩

/-- What passes a check that may fail has been checked. -/
theorem mem_of_filterM {p : α → Except ε Bool} {items kept : List α} {a : α}
    (h : items.filterM p = .ok kept) (ha : a ∈ kept) : a ∈ items ∧ p a = .ok true := by
  unfold List.filterM at h
  obtain ⟨reversed, hreversed, h⟩ := ok_of_bind h
  cases h
  exact (mem_of_filterAuxM hreversed (List.mem_reverse.mp ha)).resolve_left List.not_mem_nil

theorem filterM_none {p : α → Except ε Bool} {items : List α}
    (h : ∀ item ∈ items, p item = .ok false) : items.filterM p = .ok [] := by
  have haux : ∀ kept, items.filterAuxM p kept = .ok kept := by
    induction items with
    | nil => exact fun _ => rfl
    | cons item rest ih =>
      intro kept
      rw [List.filterAuxM, h item List.mem_cons_self]
      exact ih (fun other hm => h other (List.mem_cons_of_mem _ hm)) kept
  unfold List.filterM
  rw [haux]
  rfl

end Dissect
