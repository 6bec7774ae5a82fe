/-
# The order of time stamps

Time stamps that have a date are numbers, whole ones or fractions, and the order in which the store
puts them is the order of the numbers that they stand for (`Json.numberLt_iff`).
-/
import Dissect.Json.Number
import Dissect.Proofs.Summaries
import Mathlib.Algebra.Order.Field.Basic
import Mathlib.Data.Rat.Cast.Order
import Mathlib.Tactic.Positivity

namespace Dissect

/-! ## 1. Finite numbers -/

namespace Double

/-- The value of a finite number. -/
def toRat : Double → ℚ
  | .finite negative coefficient exponent =>
    (fraction negative coefficient exponent).1 / (fraction negative coefficient exponent).2
  | _ => 0

theorem fraction_pos (negative : Bool) (coefficient : ℕ) (exponent : ℤ) :
    0 < (fraction negative coefficient exponent).2 := by
  unfold fraction
  dsimp only
  split
  · exact Nat.one_pos
  · exact Nat.two_pow_pos _

/-- Fractions are compared by multiplying crosswise. -/
theorem cross_lt_iff {n m : ℤ} {d k : ℕ} (hd : 0 < d) (hk : 0 < k) :
    n * k < m * d ↔ (n : ℚ) / d < m / k := by
  have hd' : (0 : ℚ) < d := by exact_mod_cast hd
  have hk' : (0 : ℚ) < k := by exact_mod_cast hk
  rw [div_lt_div_iff₀ hd' hk']
  exact_mod_cast Iff.rfl

variable {s s' : Bool} {c c' : ℕ} {e e' : ℤ}

theorem lt_iff : (finite s c e).lt (finite s' c' e') = true ↔
    (finite s c e).toRat < (finite s' c' e').toRat :=
  decide_eq_true_iff.trans (cross_lt_iff (fraction_pos s c e) (fraction_pos s' c' e'))

theorem intLt_iff (i : ℤ) : (finite s c e).intLt i = true ↔ (i : ℚ) < (finite s c e).toRat := by
  have h := cross_lt_iff (n := i) (m := (fraction s c e).1) Nat.one_pos (fraction_pos s c e)
  rw [Nat.cast_one, mul_one, Nat.cast_one, div_one] at h
  exact decide_eq_true_iff.trans h

theorem ltInt_iff (i : ℤ) : (finite s c e).ltInt i = true ↔ (finite s c e).toRat < i := by
  have h := cross_lt_iff (n := (fraction s c e).1) (m := i) (fraction_pos s c e) Nat.one_pos
  rw [Nat.cast_one, mul_one, Nat.cast_one, div_one] at h
  exact decide_eq_true_iff.trans h

end Double

/-! ## 2. Time stamps -/

namespace Json

/-- The number that a document stands for. -/
def toRat : Json → ℚ
  | .int n => n
  | .bool b => if b then 1 else 0
  | .real x => x.toRat
  | _ => 0

/-- The document is a number that is neither infinite nor a NaN. -/
inductive IsFinite : Json → Prop where
  | int (n : ℤ) : IsFinite (.int n)
  | bool (b : Bool) : IsFinite (.bool b)
  | real (s : Bool) (c : ℕ) (e : ℤ) : IsFinite (.real (.finite s c e))

/-- **Finite numbers are ordered as the numbers that they stand for.** -/
theorem numberLt_iff {a b : Json} (ha : IsFinite a) (hb : IsFinite b) :
    numberLt a b = true ↔ a.toRat < b.toRat := by
  have hwhole : ∀ m n : ℤ, (decide (m < n) = true ↔ (m : ℚ) < n) := fun m n =>
    decide_eq_true_iff.trans Int.cast_lt.symm
  have hbool : ∀ b : Bool, (Json.bool b).toRat = ((if b then 1 else 0 : ℤ) : ℚ) := by
    intro b
    cases b <;> simp [toRat]
  cases ha with
  | int m =>
    cases hb with
    | int n => exact hwhole m n
    | bool b =>
      rw [hbool]
      exact hwhole m _
    | real s c e => exact Double.intLt_iff m
  | bool a =>
    rw [hbool]
    cases hb with
    | int n => exact hwhole _ n
    | bool b =>
      rw [hbool]
      exact hwhole _ _
    | real s c e => exact Double.intLt_iff _
  | real s c e =>
    cases hb with
    | int n => exact Double.ltInt_iff n
    | bool b =>
      rw [hbool]
      exact Double.ltInt_iff _
    | real s' c' e' => exact Double.lt_iff

theorem IsFinite.isNumber {document : Json} (h : IsFinite document) :
    document.isNumber = true := by
  cases h <;> rfl

theorem IsFinite.isOrdered {document : Json} (h : IsFinite document) :
    document.isOrdered = true := by
  cases h <;> rfl

end Json

/-- A time stamp that has a date is a finite number. -/
theorem Moment.Dated.isFinite {stamp : Json} (h : Dated stamp) : stamp.IsFinite := by
  obtain ⟨t, ht, -⟩ := h
  cases stamp with
  | int n => exact .int n
  | bool b => exact .bool b
  | real x =>
    cases x with
    | finite s c e => exact .real s c e
    | nan => cases ht
    | infinite negative => cases ht
  | _ => cases ht

end Dissect
