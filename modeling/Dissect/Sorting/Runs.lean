/-
# Runs

A run is a stretch of items that is in order already.  A list is cut into the runs that it has;
those that fall are turned round, and those that are short are made longer by putting the items
behind them into their places, which are found by halving.
-/
import Dissect.Sorting.Gallop

namespace Dissect.Sorting

variable {α : Type} (lt : α → α → Bool)

/-! ## 1. The run at the start -/

/-- The items that go on rising from the given one, and the rest. -/
def rising (last : α) : List α → List α × List α
  | [] => ([], [])
  | item :: rest =>
    if lt item last then ([], item :: rest)
    else
      let (run, rest) := rising item rest
      (item :: run, rest)

/-- The items that go on falling from the given one, and the rest. -/
def falling (last : α) : List α → List α × List α
  | [] => ([], [])
  | item :: rest =>
    if lt item last then
      let (run, rest) := falling item rest
      (item :: run, rest)
    else ([], item :: rest)

/-- The run at the start in rising order, and the rest. -/
def firstRun : List α → List α × List α
  | first :: second :: rest =>
    if lt second first then
      let (run, rest) := falling lt second rest
      ((first :: second :: run).reverse, rest)
    else
      let (run, rest) := rising lt second rest
      (first :: second :: run, rest)
  | items => (items, [])

/-- The run with an item put into its place, behind those that are equal. -/
def insert (run : List α) (item : α) : List α :=
  let place := bisect (fun other => !lt item other) run 0 run.length
  run.take place ++ item :: run.drop place

/-- The run at the start, made as long as asked if there are enough items, and the rest. -/
def longRun (least : Nat) (items : List α) : List α × List α :=
  let (run, rest) := firstRun lt items
  let missing := least - run.length
  ((rest.take missing).foldl (insert lt) run, rest.drop missing)

/-! ## 2. Laws -/

theorem rising_append (last : α) (items : List α) :
    (rising lt last items).1 ++ (rising lt last items).2 = items := by
  induction items generalizing last with
  | nil => rfl
  | cons item rest ih =>
    unfold rising
    split
    · rfl
    · simpa using ih item

theorem falling_append (last : α) (items : List α) :
    (falling lt last items).1 ++ (falling lt last items).2 = items := by
  induction items generalizing last with
  | nil => rfl
  | cons item rest ih =>
    unfold falling
    split
    · simpa using ih item
    · rfl

theorem firstRun_perm (items : List α) :
    ((firstRun lt items).1 ++ (firstRun lt items).2).Perm items := by
  match items with
  | [] => exact .refl _
  | [_] => exact .refl _
  | first :: second :: rest =>
    by_cases h : lt second first = true
    · have whole := falling_append lt second rest
      simp only [firstRun, h, if_true]
      refine ((List.reverse_perm _).append_right _).trans ?_
      simp [whole]
    · have whole := rising_append lt second rest
      simp [firstRun, h, whole]

/-- A list that is not empty starts with a run that is not. -/
theorem firstRun_ne_nil (item : α) (rest : List α) : (firstRun lt (item :: rest)).1 ≠ [] := by
  match rest with
  | [] => simp [firstRun]
  | second :: rest =>
    by_cases h : lt second item = true <;> simp [firstRun, h]

theorem insert_perm (run : List α) (item : α) : (insert lt run item).Perm (item :: run) := by
  unfold insert
  refine List.perm_middle.trans ?_
  simp

theorem foldl_insert_perm (rest run : List α) :
    (rest.foldl (insert lt) run).Perm (run ++ rest) := by
  induction rest generalizing run with
  | nil => simp
  | cons item rest ih =>
    refine (ih (insert lt run item)).trans ?_
    exact ((insert_perm lt run item).append_right rest).trans List.perm_middle.symm

theorem longRun_perm (least : Nat) (items : List α) :
    ((longRun lt least items).1 ++ (longRun lt least items).2).Perm items := by
  let rest := (firstRun lt items).2
  let missing := least - (firstRun lt items).1.length
  refine ((foldl_insert_perm lt (rest.take missing) _).append_right (rest.drop missing)).trans ?_
  rw [List.append_assoc, List.take_append_drop]
  exact firstRun_perm lt items

/-- A run takes something off a list that is not empty. -/
theorem length_rest_longRun (least : Nat) (item : α) (rest : List α) :
    (longRun lt least (item :: rest)).2.length < (item :: rest).length := by
  have whole := (firstRun_perm lt (item :: rest)).length_eq
  have run := List.length_pos_iff.mpr (firstRun_ne_nil lt item rest)
  rw [List.length_append] at whole
  simp only [longRun, List.length_drop]
  omega

/-! ## 3. All runs -/

/-- The runs that a list is cut into, each made as long as asked if there are enough items. -/
def runs (least : Nat) : List α → List (List α)
  | [] => []
  | item :: rest =>
    (longRun lt least (item :: rest)).1 :: runs least (longRun lt least (item :: rest)).2
  termination_by items => items.length
  decreasing_by exact length_rest_longRun lt least item rest

/-- The runs that a list is cut into hold its items. -/
theorem runs_perm (least : Nat) (items : List α) : (runs lt least items).flatten.Perm items := by
  fun_induction runs lt least items with
  | case1 => exact .refl _
  | case2 item rest ih =>
    rw [List.flatten_cons]
    exact (ih.append_left _).trans (longRun_perm lt least (item :: rest))

end Dissect.Sorting
