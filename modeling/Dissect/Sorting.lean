/-
# Sorting

Items that an order compares are sorted by merging; equal items keep their order.  Where an item
compares with nothing, such as a NaN, no order exists, and items end up where the comparisons leave
them: so the comparisons that are made are part of the definition.  Then the list is cut into the
runs that it has, which are merged as they come, those first that are neighbours at the finest
halving of the list.
-/
import Dissect.Sorting.Merge
import Dissect.Sorting.Runs

namespace Dissect.Sorting

variable {α : Type} (lt : α → α → Bool)

/-! ## 1. Runs that wait -/

/-- A run that waits to be merged, and at which halving of the list the run before it and this one
come to lie in different parts. -/
structure Waiting (α : Type) where
  run : List α
  depth : Nat

/-- The items of runs that wait. -/
def Waiting.items (stack : List (Waiting α)) : List α := (stack.map Waiting.run).flatten

/-- At which halving of a length two points come to lie in different parts. -/
def depthBetween : Nat → Nat → Nat → Nat → Nat
  | 0, _, _, _ => 0
  | fuel + 1, length, first, second =>
    if length ≤ first then
      depthBetween fuel length (2 * (first - length)) (2 * (second - length)) + 1
    else if length ≤ second then 1
    else depthBetween fuel length (2 * first) (2 * second) + 1

/-- The depth of the boundary between two runs of the given lengths, the first of which starts at a
position in a list of the given length: it separates the middles of the runs. -/
def boundaryDepth (length start first second : Nat) : Nat :=
  let middle := 2 * start + first
  depthBetween (length + 2) length middle (middle + first + second)

/-- Merges the last runs as long as their boundary lies deeper than the given depth.  The stack
starts with the last run. -/
def collapse (depth wins : Nat) : List (Waiting α) → Nat × List (Waiting α)
  | top :: below :: rest =>
    if depth < top.depth then
      let (run, wins) := mergeRuns lt wins below.run top.run
      collapse depth wins (⟨run, below.depth⟩ :: rest)
    else (wins, top :: below :: rest)
  | stack => (wins, stack)
  termination_by stack => stack.length

/-- Puts a run on the stack. -/
def push (length : Nat) (state : Nat × List (Waiting α)) (run : List α) :
    Nat × List (Waiting α) :=
  match state with
  | (wins, []) => (wins, [⟨run, 0⟩])
  | (wins, top :: below) =>
    let start := (Waiting.items below).length
    let depth := boundaryDepth length start top.run.length run.length
    let (wins, stack) := collapse lt depth wins (top :: below)
    (wins, ⟨run, depth⟩ :: stack)

/-- Merges all runs that wait. -/
def mergeAll (wins : Nat) : List (Waiting α) → List α
  | [] => []
  | [top] => top.run
  | [top, below] => (mergeRuns lt wins below.run top.run).1
  | top :: below :: third :: rest =>
    if third.run.length < top.run.length then
      let (run, wins) := mergeRuns lt wins third.run below.run
      mergeAll wins (top :: ⟨run, third.depth⟩ :: rest)
    else
      let (run, wins) := mergeRuns lt wins below.run top.run
      mergeAll wins (⟨run, below.depth⟩ :: third :: rest)
  termination_by stack => stack.length

/-! ## 2. Sorting -/

/-- The length that runs are given: the leading six binary digits of the number of items, rounded
up, so that the number of runs is a power of two or a little less. -/
def leastRun (length : Nat) : Nat :=
  if length < 64 then length
  else
    let scale := Nat.pow 2 (Nat.log2 length - 5)
    (length + scale - 1) / scale

/-- The items sorted by merging runs. -/
def sortRuns (items : List α) : List α :=
  let (wins, stack) :=
    (runs lt (leastRun items.length) items).foldl (push lt items.length) (stretch, [])
  mergeAll lt wins stack

/-- The items in rising order; equal items keep their order.  The order is total on the items that
pass the test. -/
def sort (isOrdered : α → Bool) (items : List α) : List α :=
  if items.all isOrdered then items.mergeSort fun a b => !lt b a else sortRuns lt items

/-- The items in falling order; equal items keep their order. -/
def sortFalling (isOrdered : α → Bool) (items : List α) : List α :=
  (sort lt isOrdered items.reverse).reverse

/-! ## 3. Laws -/

@[simp] theorem Waiting.items_nil : Waiting.items ([] : List (Waiting α)) = [] := rfl

@[simp] theorem Waiting.items_cons (top : Waiting α) (rest : List (Waiting α)) :
    Waiting.items (top :: rest) = top.run ++ Waiting.items rest := rfl

theorem collapse_perm (depth wins : Nat) (stack : List (Waiting α)) :
    (Waiting.items (collapse lt depth wins stack).2).Perm (Waiting.items stack) := by
  fun_induction collapse lt depth wins stack with
  | case1 wins top below rest _ run wins' merged ih =>
    have whole := mergeRuns_perm lt wins below.run top.run
    rw [merged] at whole
    refine ih.trans ?_
    simp only [Waiting.items_cons, ← List.append_assoc]
    exact (whole.trans List.perm_append_comm).append_right _
  | case2 => exact .refl _
  | case3 => exact .refl _

theorem push_perm (length : Nat) (state : Nat × List (Waiting α)) (run : List α) :
    (Waiting.items (push lt length state run).2).Perm (run ++ Waiting.items state.2) := by
  match state with
  | (wins, []) => simp [push]
  | (wins, top :: below) => exact (collapse_perm lt _ wins (top :: below)).append_left run

theorem foldl_push_perm (length : Nat) (state : Nat × List (Waiting α)) (all : List (List α)) :
    (Waiting.items (all.foldl (push lt length) state).2).Perm
      (all.flatten ++ Waiting.items state.2) := by
  induction all generalizing state with
  | nil => exact .refl _
  | cons run all ih =>
    refine (ih (push lt length state run)).trans ?_
    refine ((push_perm lt length state run).append_left _).trans ?_
    rw [List.flatten_cons, ← List.append_assoc]
    exact List.perm_append_comm.append_right _

theorem mergeAll_perm (wins : Nat) (stack : List (Waiting α)) :
    (mergeAll lt wins stack).Perm (Waiting.items stack) := by
  classical
  rw [List.perm_iff_count]
  intro a
  have merge := fun wins left right =>
    (List.perm_iff_count.mp (mergeRuns_perm lt wins left right)) a
  fun_induction mergeAll lt wins stack <;> grind [Waiting.items_cons, Waiting.items_nil]

theorem sortRuns_perm (items : List α) : (sortRuns lt items).Perm items := by
  refine (mergeAll_perm lt _ _).trans ?_
  refine (foldl_push_perm lt items.length (stretch, []) _).trans ?_
  simpa using runs_perm lt _ items

/-- Sorting keeps every item and adds none. -/
theorem sort_perm (isOrdered : α → Bool) (items : List α) :
    (sort lt isOrdered items).Perm items := by
  unfold sort
  split
  · exact List.mergeSort_perm _ _
  · exact sortRuns_perm lt items

/-- Sorting the other way keeps every item and adds none. -/
theorem sortFalling_perm (isOrdered : α → Bool) (items : List α) :
    (sortFalling lt isOrdered items).Perm items :=
  (List.reverse_perm _).trans ((sort_perm lt isOrdered _).trans (List.reverse_perm _))

end Dissect.Sorting
