/-
# What keeps a value from being written

Two things do: a whole number of more than 4300 digits, and parts that are nested too deeply.  The
parts of a value are written one after the other, so of several such things the first one counts.
-/
import Dissect.Json.Printer
import Dissect.Value

namespace Dissect.Value

/-- What keeps a value from being written. -/
inductive Obstacle where
  /-- A whole number has too many digits. -/
  | digits
  /-- Parts are nested too deeply. -/
  | depth
deriving DecidableEq, Repr

/-- How many levels of parts a value may have.  Writing takes one call for each level out of a
thousand, and the calls that surround it take theirs: this is what is left where they are few. -/
def maxLevels : Nat := 980

mutual

/-- The first obstacle in a value that may have so many levels of parts. -/
def obstacle? : Nat → Value → Option Obstacle
  | 0, _ => some .depth
  | _ + 1, .int n => if n.natAbs < Json.tooLong then Option.none else some .digits
  | levels + 1, .list items => itemsObstacle? levels items
  | levels + 1, .tuple items => itemsObstacle? levels items
  | levels + 1, .dict entries => entriesObstacle? levels entries
  | _ + 1, _ => Option.none

/-- The first obstacle in items. -/
def itemsObstacle? : Nat → List Value → Option Obstacle
  | _, [] => Option.none
  | levels, item :: rest => (obstacle? levels item).or (itemsObstacle? levels rest)

/-- The first obstacle in entries. -/
def entriesObstacle? : Nat → List (Value × Value) → Option Obstacle
  | _, [] => Option.none
  | levels, (key, value) :: rest =>
    ((obstacle? levels key).or (obstacle? levels value)).or (entriesObstacle? levels rest)

end

/-! ## 1. The two obstacles apart -/

mutual

/-- No whole number in the value has too many digits. -/
def isWritable : Value → Bool
  | .int n => n.natAbs < Json.tooLong
  | .list items => areWritable items
  | .tuple items => areWritable items
  | .dict entries => entriesAreWritable entries
  | _ => true

/-- No whole number in the items has too many digits. -/
def areWritable : List Value → Bool
  | [] => true
  | item :: rest => isWritable item && areWritable rest

/-- No whole number in the entries has too many digits. -/
def entriesAreWritable : List (Value × Value) → Bool
  | [] => true
  | (key, value) :: rest => isWritable key && isWritable value && entriesAreWritable rest

end

mutual

/-- The levels of parts that a value has; one without parts is a single level. -/
def levels : Value → Nat
  | .list items => levelsOfItems items + 1
  | .tuple items => levelsOfItems items + 1
  | .dict entries => levelsOfEntries entries + 1
  | _ => 1

/-- The levels of the deepest of items. -/
def levelsOfItems : List Value → Nat
  | [] => 0
  | item :: rest => max (levels item) (levelsOfItems rest)

/-- The levels of the deepest of entries. -/
def levelsOfEntries : List (Value × Value) → Nat
  | [] => 0
  | (key, value) :: rest => max (max (levels key) (levels value)) (levelsOfEntries rest)

end

mutual

/-- **A value can be written** exactly if its numbers are short and its levels few. -/
theorem obstacle?_eq_none_iff : ∀ (most : Nat) (v : Value),
    v.obstacle? most = Option.none ↔ v.isWritable = true ∧ v.levels ≤ most
  | 0, v => by
    have hlevels : 0 < v.levels := by cases v <;> simp [levels]
    simp only [obstacle?, reduceCtorEq, false_iff, not_and]
    omega
  | most + 1, .list items => by
    rw [obstacle?, isWritable, levels, Nat.succ_le_succ_iff]
    exact itemsObstacle?_eq_none_iff most items
  | most + 1, .tuple items => by
    rw [obstacle?, isWritable, levels, Nat.succ_le_succ_iff]
    exact itemsObstacle?_eq_none_iff most items
  | most + 1, .dict entries => by
    rw [obstacle?, isWritable, levels, Nat.succ_le_succ_iff]
    exact entriesObstacle?_eq_none_iff most entries
  | most + 1, .int n => by simp [obstacle?, isWritable, levels]
  | most + 1, .none | most + 1, .bool _ | most + 1, .real _ | most + 1, .str _ | most + 1, .bytes _
  | most + 1, .buffer _ | most + 1, .view _ | most + 1, .path _ => by
    simp [obstacle?, isWritable, levels]

theorem itemsObstacle?_eq_none_iff : ∀ (most : Nat) (items : List Value),
    itemsObstacle? most items = Option.none ↔
      areWritable items = true ∧ levelsOfItems items ≤ most
  | most, [] => by simp [itemsObstacle?, areWritable, levelsOfItems]
  | most, item :: rest => by
    rw [itemsObstacle?, Option.or_eq_none_iff, obstacle?_eq_none_iff most item,
      itemsObstacle?_eq_none_iff most rest, areWritable, levelsOfItems, Bool.and_eq_true,
      Nat.max_le]
    exact and_and_and_comm

theorem entriesObstacle?_eq_none_iff : ∀ (most : Nat) (entries : List (Value × Value)),
    entriesObstacle? most entries = Option.none ↔
      entriesAreWritable entries = true ∧ levelsOfEntries entries ≤ most
  | most, [] => by simp [entriesObstacle?, entriesAreWritable, levelsOfEntries]
  | most, (key, value) :: rest => by
    rw [entriesObstacle?, Option.or_eq_none_iff, Option.or_eq_none_iff,
      obstacle?_eq_none_iff most key, obstacle?_eq_none_iff most value,
      entriesObstacle?_eq_none_iff most rest, entriesAreWritable, levelsOfEntries,
      Bool.and_eq_true, Bool.and_eq_true, Nat.max_le, Nat.max_le,
      and_and_and_comm (a := key.isWritable = true)]
    exact and_and_and_comm

end

/-- More levels are no obstacle. -/
theorem obstacle?_eq_none_of_le {v : Value} {few most : Nat} (hle : few ≤ most)
    (h : v.obstacle? few = Option.none) : v.obstacle? most = Option.none :=
  have ⟨hshort, hlevels⟩ := (obstacle?_eq_none_iff few v).mp h
  (obstacle?_eq_none_iff most v).mpr ⟨hshort, Nat.le_trans hlevels hle⟩

/-- Items can be written if each one can. -/
theorem itemsObstacle?_eq_none_iff_forall {most : Nat} {items : List Value} :
    itemsObstacle? most items = Option.none ↔
      ∀ item ∈ items, item.obstacle? most = Option.none := by
  induction items with
  | nil => exact iff_of_true rfl nofun
  | cons item rest ih => rw [itemsObstacle?, Option.or_eq_none_iff, ih, List.forall_mem_cons]

end Dissect.Value
