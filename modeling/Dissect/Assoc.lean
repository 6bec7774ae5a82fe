/-
# Ordered tables

A table is a list of pairs with distinct keys in the order in which the keys were first set.
Setting a key that is present changes its value in place; a new key goes to the end.
-/

namespace Dissect.Assoc

variable {κ β : Type} [BEq κ]

/-- The table after setting a key. -/
def set (key : κ) (value : β) : List (κ × β) → List (κ × β)
  | [] => [(key, value)]
  | (k, v) :: rest => if key == k then (k, value) :: rest else (k, v) :: set key value rest

/-- The table without a key. -/
def erase (key : κ) (table : List (κ × β)) : List (κ × β) :=
  table.filter fun (k, _) => !(key == k)

/-! ## 1. Laws -/

/-- A longer table holds for a key its first value or what the rest holds. -/
theorem lookup_cons_some {key other : κ} [LawfulBEq κ] {value found : β} {table : List (κ × β)}
    (h : List.lookup other ((key, value) :: table) = some found) :
    (other = key ∧ value = found) ∨ table.lookup other = some found := by
  rw [List.lookup_cons] at h
  split at h
  · rename_i heq
    exact .inl ⟨eq_of_beq heq, Option.some.inj h⟩
  · exact .inr h

theorem lookup_set_self (key : κ) (value : β) (table : List (κ × β)) [ReflBEq κ] :
    (set key value table).lookup key = some value := by
  induction table with
  | nil => simp [set]
  | cons entry rest ih =>
    obtain ⟨k, v⟩ := entry
    by_cases h : (key == k) = true
    · simp [set, h, List.lookup_cons]
    · simp [set, h, List.lookup_cons, ih]

theorem lookup_set_of_ne {key other : κ} [LawfulBEq κ] (h : other ≠ key) (value : β)
    (table : List (κ × β)) : (set key value table).lookup other = table.lookup other := by
  have ho : (other == key) = false := by simpa using h
  induction table with
  | nil => simp [set, List.lookup_cons, ho]
  | cons entry rest ih =>
    obtain ⟨k, v⟩ := entry
    by_cases hk : (key == k) = true
    · have e : key = k := by simpa using hk
      subst e
      simp [set, List.lookup_cons, ho]
    · simp [set, hk, List.lookup_cons, ih]

/-- A key that is new goes to the end; no other key changes its place. -/
theorem keys_set (key : κ) [LawfulBEq κ] (value : β) (table : List (κ × β)) :
    (set key value table).map Prod.fst =
      if key ∈ table.map Prod.fst then table.map Prod.fst else table.map Prod.fst ++ [key] := by
  induction table with
  | nil => rfl
  | cons entry rest ih =>
    obtain ⟨k, v⟩ := entry
    rw [set]
    by_cases hk : key = k
    · subst hk
      simp
    · rw [if_neg (by simpa using hk), List.map_cons, List.map_cons, ih]
      by_cases hm : key ∈ rest.map Prod.fst
      · rw [if_pos hm, if_pos (List.mem_cons_of_mem _ hm)]
      · rw [if_neg hm, if_neg fun hmem => (List.mem_cons.mp hmem).elim hk hm, List.cons_append]

theorem lookup_erase_self (key : κ) [LawfulBEq κ] (table : List (κ × β)) :
    (erase key table).lookup key = none := by
  induction table with
  | nil => simp [erase]
  | cons entry rest ih => simp [erase]

end Dissect.Assoc
