/-
# Merging runs

Two runs that stand one after the other are merged from the front or from the back, whichever way
the shorter run is the one held aside.  While the runs take turns items are compared one by one; as
soon as one run wins often in a row, whole stretches are looked for by galloping.  How often that
has to be is learned from merge to merge.
-/
import Dissect.Sorting.Gallop

namespace Dissect.Sorting

variable {α : Type} (lt : α → α → Bool)

/-- How long a stretch has to be for galloping to pay, at first. -/
def stretch : Nat := 7

/-- How a merge goes on: item by item, after so many wins in a row of either run, or galloping. -/
inductive Pace where
  | plain (left right : Nat)
  | galloping
deriving DecidableEq, Repr

/-- A list of items and how many wins in a row make a merge gallop from then on. -/
abbrev Merged (α : Type) := List α × Nat

/-- One less, but not less than one. -/
def eased (wins : Nat) : Nat := if 1 < wins then wins - 1 else wins

/-- The pace after a win, and the wins that it takes to gallop. -/
def paceAfter (wins left right : Nat) : Pace × Nat :=
  if wins ≤ max left right then (.galloping, wins + 1) else (.plain left right, wins)

/-- The pace after a round of galloping, by the lengths of the stretches found. -/
def paceAfterGallop (wins left right : Nat) : Pace × Nat :=
  if stretch ≤ left || stretch ≤ right then (.galloping, wins) else (.plain 0 0, wins + 1)

/-! ## 1. From the front -/

/-- Goes on merging two runs behind what is merged already.  The last item of the left run is known
to belong at the end. -/
def mergeFront : Nat → Pace × Nat → List α → List α → List α → Merged α
  | 0, (_, wins), merged, left, right => (merged ++ left ++ right, wins)
  | fuel + 1, (.plain l r, wins), merged, x :: left, y :: right =>
    if lt y x then
      if right.isEmpty then (merged ++ y :: x :: left, wins)
      else mergeFront fuel (paceAfter wins 0 (r + 1)) (merged ++ [y]) (x :: left) right
    else
      if left.length = 1 then (merged ++ x :: y :: right ++ left, wins)
      else mergeFront fuel (paceAfter wins (l + 1) 0) (merged ++ [x]) left (y :: right)
  | fuel + 1, (.galloping, wins), merged, left, y :: right =>
    let wins := eased wins
    let l := gallop (fun x => !lt y x) left 0
    let merged := merged ++ left.take l
    match left.drop l with
    | [] => (merged ++ y :: right, wins)
    | x :: left =>
      if l != 0 && left.isEmpty then (merged ++ y :: right ++ [x], wins)
      else if right.isEmpty then (merged ++ y :: x :: left, wins)
      else
        let r := gallop (fun y => lt y x) right 0
        let merged := merged ++ y :: right.take r
        let right := right.drop r
        if r != 0 && right.isEmpty then (merged ++ x :: left, wins)
        else if left.length = 1 then (merged ++ x :: right ++ left, wins)
        else mergeFront fuel (paceAfterGallop wins l r) (merged ++ [x]) left right
  | _ + 1, (_, wins), merged, left, right => (merged ++ left ++ right, wins)

/-! ## 2. From the back -/

/-- Goes on merging two runs, each given from its last item to its first, before what is merged
already.  The first item of the right run is known to belong at the front. -/
def mergeBack : Nat → Pace × Nat → List α → List α → List α → Merged α
  | 0, (_, wins), left, right, merged => (left.reverse ++ right.reverse ++ merged, wins)
  | fuel + 1, (.plain l r, wins), x :: left, y :: right, merged =>
    if lt y x then
      if left.isEmpty then ((y :: right).reverse ++ x :: merged, wins)
      else mergeBack fuel (paceAfter wins (l + 1) 0) left (y :: right) (x :: merged)
    else
      if right.length = 1 then (right ++ (x :: left).reverse ++ y :: merged, wins)
      else mergeBack fuel (paceAfter wins 0 (r + 1)) (x :: left) right (y :: merged)
  | fuel + 1, (.galloping, wins), left, y :: right, merged =>
    let wins := eased wins
    let l := left.length - gallop (fun x => !lt y x) left.reverse (left.length - 1)
    let merged := (left.take l).reverse ++ merged
    match left.drop l with
    | [] => ((y :: right).reverse ++ merged, wins)
    | x :: left =>
      let merged := y :: merged
      if right.length = 1 then (right ++ (x :: left).reverse ++ merged, wins)
      else
        let r := right.length - gallop (fun y => lt y x) right.reverse (right.length - 1)
        let merged := (right.take r).reverse ++ merged
        let right := right.drop r
        if r != 0 && right.length ≤ 1 then (right ++ (x :: left).reverse ++ merged, wins)
        else if left.isEmpty then (right.reverse ++ x :: merged, wins)
        else mergeBack fuel (paceAfterGallop wins l r) left right (x :: merged)
  | _ + 1, (_, wins), left, right, merged => (left.reverse ++ right.reverse ++ merged, wins)

/-! ## 3. Two runs -/

/-- Merges two runs of which the first item of the right one belongs at the front and the last item
of the left one at the end. -/
def mergeInner (wins : Nat) (left right : List α) : Merged α :=
  let fuel := left.length + right.length
  if left.length ≤ right.length then
    match right with
    | [] => (left, wins)
    | y :: right =>
      if right.isEmpty then (y :: left, wins)
      else if left.length = 1 then (y :: right ++ left, wins)
      else mergeFront lt fuel (.plain 0 0, wins) [y] left right
  else
    match left.reverse with
    | [] => (right, wins)
    | x :: left =>
      if left.isEmpty then (right ++ [x], wins)
      else if right.length = 1 then (right ++ left.reverse ++ [x], wins)
      else mergeBack lt fuel (.plain 0 0, wins) left right.reverse [x]

/-- Merges two runs.  What is in place at either end stays there. -/
def mergeRuns (wins : Nat) (left right : List α) : Merged α :=
  match right with
  | [] => (left, wins)
  | y :: _ =>
    let settled := gallop (fun x => !lt y x) left 0
    let front := left.take settled
    let left := left.drop settled
    match left.getLast? with
    | none => (front ++ right, wins)
    | some x =>
      let unsettled := gallop (fun y => lt y x) right (right.length - 1)
      let back := right.drop unsettled
      let (merged, wins) := mergeInner lt wins left (right.take unsettled)
      (front ++ merged ++ back, wins)

/-! ## 4. Laws

Merging keeps every item and adds none.  All of these count how often an item occurs. -/

/-- What is taken off the front and what is left hold together what was there. -/
theorem count_take_add_count_drop [BEq α] (a : α) (n : Nat) (items : List α) :
    items.count a = (items.take n).count a + (items.drop n).count a := by
  rw [← List.count_append, List.take_append_drop]

grind_pattern count_take_add_count_drop => List.drop n items, List.count a items

theorem mergeFront_perm (fuel : Nat) (pace : Pace × Nat) (merged left right : List α) :
    (mergeFront lt fuel pace merged left right).1.Perm (merged ++ left ++ right) := by
  classical
  rw [List.perm_iff_count]
  intro a
  fun_induction mergeFront lt fuel pace merged left right <;> grind [List.isEmpty_iff]

theorem mergeBack_perm (fuel : Nat) (pace : Pace × Nat) (left right merged : List α) :
    (mergeBack lt fuel pace left right merged).1.Perm (left ++ right ++ merged) := by
  classical
  rw [List.perm_iff_count]
  intro a
  fun_induction mergeBack lt fuel pace left right merged <;> grind [List.isEmpty_iff]

theorem mergeInner_perm (wins : Nat) (left right : List α) :
    (mergeInner lt wins left right).1.Perm (left ++ right) := by
  classical
  rw [List.perm_iff_count]
  intro a
  have front := fun fuel pace merged left right =>
    (List.perm_iff_count.mp (mergeFront_perm lt fuel pace merged left right)) a
  have back := fun fuel pace left right merged =>
    (List.perm_iff_count.mp (mergeBack_perm lt fuel pace left right merged)) a
  have turned : left.reverse.count a = left.count a := List.count_reverse
  unfold mergeInner
  grind [List.isEmpty_iff]

/-- Merging two runs keeps every item and adds none. -/
theorem mergeRuns_perm (wins : Nat) (left right : List α) :
    (mergeRuns lt wins left right).1.Perm (left ++ right) := by
  classical
  rw [List.perm_iff_count]
  intro a
  have inner := fun left right =>
    (List.perm_iff_count.mp (mergeInner_perm lt wins left right)) a
  unfold mergeRuns
  grind

end Dissect.Sorting
