/-
# Galloping searches

A search for the place of a key among items that starts at a hint, walks away from it in steps that
double, and halves the last step.  Among sorted items it finds how many of them stand before the
key; among others it finds what the comparisons on its way say.
-/

namespace Dissect.Sorting

variable {α : Type}

/-- How many of the items from `low` to `high` stand before a key, found by halving. -/
def bisect (isBefore : α → Bool) (items : List α) (low high : Nat) : Nat :=
  if _ : low < high then
    let middle := low + (high - low) / 2
    match items[middle]? with
    | some item =>
      if isBefore item then bisect isBefore items (middle + 1) high
      else bisect isBefore items low middle
    | none => low
  else low
  termination_by high - low
  decreasing_by all_goals omega

/-- The last step and the next one of a walk that goes on as long as a test on the step holds; steps
below the bound are tested. -/
def walk (goesOn : Nat → Bool) (bound last step : Nat) : Nat × Nat :=
  if _ : step < bound then
    if goesOn step then walk goesOn bound step (2 * step + 1) else (last, step)
  else (last, bound)
  termination_by bound - step
  decreasing_by omega

/-- The item at a position passes the test. -/
def passes (test : α → Bool) (items : List α) (position : Nat) : Bool :=
  (items[position]?).any test

/-- How many items stand before a key, looked for from a hint. -/
def gallop (isBefore : α → Bool) (items : List α) (hint : Nat) : Nat :=
  if passes isBefore items hint then
    let (last, step) :=
      walk (fun step => passes isBefore items (hint + step)) (items.length - hint) 0 1
    bisect isBefore items (hint + last + 1) (hint + step)
  else
    let (last, step) :=
      walk (fun step => !passes isBefore items (hint - step)) (hint + 1) 0 1
    bisect isBefore items (hint + 1 - step) (hint - last)

end Dissect.Sorting
