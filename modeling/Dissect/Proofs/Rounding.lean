/-
# Rounding to the nearest number

A floating-point number is made from a fraction by choosing a power of two and rounding the quotient.
What comes out depends on the ratio alone and not on the fraction that gives it (`ofFraction_eq`),
so it is told here as a function of a rational number (`Double.round`).  The exponent chosen is the
one that leaves 53 bits, unless the number is too small for that (`gridExponent`).

Two consequences are used elsewhere.  A decimal is rounded correctly, also where it is so large or so
small that the power of ten is not taken (`ofDecimal_eq`).  And what lies closer to a number of the
format than a quarter of its last place rounds to that number (`round_of_near`); a quarter and not a
half, because below a power of two the numbers lie twice as dense.
-/
import Dissect.Double.Decimal
import Mathlib.Algebra.Order.Field.Power
import Mathlib.Data.Int.Log
import Mathlib.Data.Rat.Floor
import Mathlib.Tactic.FieldSimp
import Mathlib.Tactic.Linarith
import Mathlib.Tactic.NormNum
import Mathlib.Tactic.Positivity
import Mathlib.Tactic.Ring

namespace Dissect.Double

/-! ## 1. The nearest integer -/

/-- The integer nearest to a rational, ties to even. -/
def nearest (q : ℚ) : ℕ := roundQuotient q.num.natAbs q.den

theorem roundQuotient_mul (num den : ℕ) {k : ℕ} (hk : 0 < k) :
    roundQuotient (num * k) (den * k) = roundQuotient num den := by
  have hmore : ∀ r, (2 * (r * k) > den * k) ↔ 2 * r > den := by
    intro r
    rw [gt_iff_lt, gt_iff_lt, ← mul_assoc]
    exact Nat.mul_lt_mul_right hk
  have hhalf : ∀ r, (2 * (r * k) = den * k) ↔ 2 * r = den := by
    intro r
    rw [← mul_assoc]
    exact Nat.mul_left_inj hk.ne'
  unfold roundQuotient
  simp only [Nat.mul_div_mul_right _ _ hk, Nat.mul_mod_mul_right, hmore, beq_eq_decide, hhalf]

/-- Rounding a quotient depends on the ratio only. -/
theorem roundQuotient_eq {num den : ℕ} (hd : 0 < den) :
    roundQuotient num den = nearest ((num : ℚ) / den) := by
  obtain ⟨k, hnum, hden⟩ :=
    Rat.exists_eq_mul_div_num_and_eq_mul_div_den (num : ℤ) (Int.natCast_ne_zero.mpr hd.ne')
  simp only [Int.cast_natCast] at hnum hden
  set q : ℚ := (num : ℚ) / den with hq
  have hk : 0 < k.natAbs := by
    rw [Int.natAbs_pos]
    rintro rfl
    rw [zero_mul] at hden
    exact hd.ne' (Int.natCast_eq_zero.mp hden)
  have hnum' : num = q.num.natAbs * k.natAbs := by
    have h := congrArg Int.natAbs hnum
    rw [Int.natAbs_natCast, Int.natAbs_mul] at h
    rw [h, mul_comm]
  have hden' : den = q.den * k.natAbs := by
    have h := congrArg Int.natAbs hden
    rw [Int.natAbs_natCast, Int.natAbs_mul, Int.natAbs_natCast] at h
    rw [h, mul_comm]
  unfold nearest
  rw [hnum', hden', roundQuotient_mul _ _ hk]

/-- A rounded quotient is at most a half away from the quotient. -/
theorem roundQuotient_bounds (num : ℕ) {den : ℕ} (hd : 0 < den) :
    2 * num ≤ 2 * (den * roundQuotient num den) + den ∧
      2 * (den * roundQuotient num den) ≤ 2 * num + den := by
  have hdiv := Nat.div_add_mod num den
  have hrest := Nat.mod_lt num hd
  unfold roundQuotient
  dsimp only
  split
  · rename_i hup
    simp only [Bool.or_eq_true, decide_eq_true_eq, Bool.and_eq_true, beq_iff_eq] at hup
    rw [Nat.mul_add, Nat.mul_one]
    constructor <;> omega
  · rename_i hdown
    simp only [Bool.or_eq_true, decide_eq_true_eq, not_or] at hdown
    constructor <;> omega

/-- The nearest integer is at most a half away. -/
theorem abs_nearest_sub_le {q : ℚ} (hq : 0 ≤ q) : |(nearest q : ℚ) - q| ≤ 1 / 2 := by
  obtain ⟨hlow, hhigh⟩ := roundQuotient_bounds q.num.natAbs q.den_pos
  have hpos : (0 : ℚ) < q.den := by exact_mod_cast q.den_pos
  have hnum : (q.num.natAbs : ℚ) = q * q.den := by
    rw [Rat.mul_den_eq_num, Nat.cast_natAbs, abs_of_nonneg (Rat.num_nonneg.mpr hq)]
  have hlow' : 2 * (q * q.den) ≤ 2 * (q.den * nearest q) + q.den := by
    rw [← hnum]
    exact_mod_cast hlow
  have hhigh' : 2 * (q.den * (nearest q : ℚ)) ≤ 2 * (q * q.den) + q.den := by
    rw [← hnum]
    exact_mod_cast hhigh
  rw [abs_le]
  constructor
  · by_contra h
    nlinarith
  · by_contra h
    nlinarith

/-- An integer less than a half away is the nearest one. -/
theorem nearest_eq {q : ℚ} {n : ℕ} (hq : 0 ≤ q) (h : |q - n| < 1 / 2) : nearest q = n := by
  have hnear := abs_nearest_sub_le hq
  rw [abs_le] at hnear
  rw [abs_lt] at h
  have hlow : (nearest q : ℚ) < n + 1 := by linarith
  have hhigh : (n : ℚ) < nearest q + 1 := by linarith
  have hlow' : nearest q < n + 1 := by exact_mod_cast hlow
  have hhigh' : n < nearest q + 1 := by exact_mod_cast hhigh
  omega

/-! ## 2. The exponent -/

theorem two_zpow_pos (e : ℤ) : (0 : ℚ) < 2 ^ e := zpow_pos (by norm_num) e

theorem natPow_cast (k : ℕ) : ((Nat.pow 2 k : ℕ) : ℚ) = 2 ^ k := Nat.cast_pow 2 k

/-- Scaling a fraction divides its value by the power of two. -/
theorem scaleDown_eq (num : ℕ) {den : ℕ} (hd : 0 < den) (e : ℤ) :
    0 < (scaleDown num den e).2 ∧
      ((scaleDown num den e).1 : ℚ) / (scaleDown num den e).2 = (num : ℚ) / den / 2 ^ e := by
  have hd' : (den : ℚ) ≠ 0 := by exact_mod_cast hd.ne'
  unfold scaleDown
  split
  · rename_i he
    obtain ⟨k, rfl⟩ := Int.eq_ofNat_of_zero_le he
    refine ⟨Nat.mul_pos hd (Nat.two_pow_pos _), ?_⟩
    simp only [Int.toNat_natCast, zpow_natCast, Nat.cast_mul, natPow_cast]
    rw [div_div]
  · rename_i he
    obtain ⟨k, hk⟩ := Int.eq_ofNat_of_zero_le (show 0 ≤ -e by omega)
    obtain rfl : e = -(k : ℤ) := by omega
    refine ⟨hd, ?_⟩
    simp only [neg_neg, Int.toNat_natCast, zpow_neg, zpow_natCast, Nat.cast_mul, natPow_cast]
    field_simp

theorem le_log_iff {q : ℚ} (hq : 0 < q) (e : ℤ) : e ≤ Int.log 2 q ↔ (2 : ℚ) ^ e ≤ q :=
  (Int.zpow_le_iff_le_log (by norm_num) hq).symm

theorem log_lt_iff {q : ℚ} (hq : 0 < q) (e : ℤ) : Int.log 2 q < e ↔ q < (2 : ℚ) ^ e :=
  (Int.lt_zpow_iff_log_lt (by norm_num) hq).symm

/-- The logarithms of a numerator and a denominator enclose that of the ratio. -/
theorem log_of_log2 {num den : ℕ} (hn : 0 < num) (hd : 0 < den) :
    (num.log2 : ℤ) - den.log2 - 1 ≤ Int.log 2 ((num : ℚ) / den) ∧
      Int.log 2 ((num : ℚ) / den) ≤ (num.log2 : ℤ) - den.log2 := by
  have hn' : (0 : ℚ) < num := by exact_mod_cast hn
  have hd' : (0 : ℚ) < den := by exact_mod_cast hd
  have hq : (0 : ℚ) < (num : ℚ) / den := div_pos hn' hd'
  have hbounds : ∀ m : ℕ, 0 < m → (2 : ℚ) ^ (m.log2 : ℤ) ≤ m ∧ (m : ℚ) < 2 ^ ((m.log2 : ℤ) + 1) := by
    intro m hm
    refine ⟨?_, ?_⟩
    · rw [zpow_natCast]
      exact_mod_cast Nat.log2_self_le hm.ne'
    · have h : ((m.log2 : ℤ) + 1) = ((m.log2 + 1 : ℕ) : ℤ) := by push_cast; rfl
      rw [h, zpow_natCast]
      exact_mod_cast Nat.lt_log2_self (n := m)
  obtain ⟨hnlow, hnhigh⟩ := hbounds num hn
  obtain ⟨hdlow, hdhigh⟩ := hbounds den hd
  constructor
  · rw [le_log_iff hq, le_div_iff₀ hd']
    calc (2 : ℚ) ^ ((num.log2 : ℤ) - den.log2 - 1) * den
        ≤ 2 ^ ((num.log2 : ℤ) - den.log2 - 1) * 2 ^ ((den.log2 : ℤ) + 1) :=
          mul_le_mul_of_nonneg_left hdhigh.le (two_zpow_pos _).le
      _ = 2 ^ (num.log2 : ℤ) := by
          rw [← zpow_add₀ (by norm_num)]
          congr 1
          ring
      _ ≤ num := hnlow
  · rw [← Int.lt_add_one_iff, log_lt_iff hq, div_lt_iff₀ hd']
    calc (num : ℚ) < 2 ^ ((num.log2 : ℤ) + 1) := hnhigh
      _ = 2 ^ ((num.log2 : ℤ) - den.log2 + 1) * 2 ^ (den.log2 : ℤ) := by
          rw [← zpow_add₀ (by norm_num)]
          congr 1
          ring
      _ ≤ 2 ^ ((num.log2 : ℤ) - den.log2 + 1) * den :=
          mul_le_mul_of_nonneg_left hdlow (two_zpow_pos _).le

/-- The exponent that the format has for the numbers around a positive rational. -/
def gridExponent (q : ℚ) : ℤ := max minExponent (Int.log 2 q - 52)

/-- The exponent that is guessed from the logarithms and corrected is the right one. -/
theorem gridExponent_eq {num den : ℕ} (hn : 0 < num) (hd : 0 < den) :
    let guess : ℤ := (Nat.log2 num : ℤ) - Nat.log2 den - 53
    let scaled := scaleDown num den guess
    max minExponent (if scaled.1 / scaled.2 < Nat.pow 2 53 then guess else guess + 1) =
      gridExponent ((num : ℚ) / den) := by
  intro guess scaled
  have hq : (0 : ℚ) < (num : ℚ) / den := by positivity
  obtain ⟨hpos, hvalue⟩ := scaleDown_eq num hd guess
  have hpos' : (0 : ℚ) < scaled.2 := by exact_mod_cast hpos
  have hsmall : scaled.1 / scaled.2 < Nat.pow 2 53 ↔
      Int.log 2 ((num : ℚ) / den) < (num.log2 : ℤ) - den.log2 := by
    have hsize : (num.log2 : ℤ) - den.log2 = ((53 : ℕ) : ℤ) + guess := by
      push_cast
      omega
    rw [log_lt_iff hq, hsize, zpow_add₀ (by norm_num), ← div_lt_iff₀ (two_zpow_pos _), ← hvalue,
      div_lt_iff₀ hpos', zpow_natCast, Nat.div_lt_iff_lt_mul hpos]
    exact_mod_cast Iff.rfl
  obtain ⟨hlow, hhigh⟩ := log_of_log2 hn hd
  unfold gridExponent
  congr 1
  split
  · rename_i h
    have := hsmall.mp h
    omega
  · rename_i h
    have := mt hsmall.mpr h
    omega

/-- The number of the format nearest to a rational that is not negative. -/
def round (negative : Bool) (q : ℚ) : Double :=
  if q = 0 then .finite negative 0 0
  else pack negative (nearest (q / 2 ^ gridExponent q)) (gridExponent q)

/-- **What a fraction is rounded to depends on its value only.** -/
theorem ofFraction_eq (negative : Bool) (num : ℕ) {den : ℕ} (hd : 0 < den) :
    ofFraction negative num den = round negative ((num : ℚ) / den) := by
  unfold ofFraction round
  by_cases hn : num = 0
  · subst hn
    simp
  · have hn' : (num : ℚ) / den ≠ 0 := by positivity
    rw [if_neg hn, if_neg hn']
    have hgrid := gridExponent_eq (Nat.pos_of_ne_zero hn) hd
    dsimp only at hgrid ⊢
    rw [hgrid]
    obtain ⟨hpos, hvalue⟩ := scaleDown_eq num hd (gridExponent ((num : ℚ) / den))
    rw [roundQuotient_eq hpos, hvalue]

/-! ## 3. What is rounded to what -/

/-- The coefficient and the exponent of a positive number of the format: 53 bits, or fewer at the
least exponent. -/
structure IsPlace (coefficient : ℕ) (exponent : ℤ) : Prop where
  positive : 0 < coefficient
  bits : coefficient < 2 ^ 53
  least : minExponent ≤ exponent
  greatest : exponent ≤ maxExponent
  full : 2 ^ 52 ≤ coefficient ∨ exponent = minExponent

theorem pack_place (negative : Bool) {c : ℕ} {e : ℤ} (h : IsPlace c e) :
    pack negative c e = .finite negative c e := by
  unfold pack
  rw [if_neg h.positive.ne', if_neg (show c ≠ Nat.pow 2 53 from h.bits.ne)]
  exact if_neg (Int.not_lt.mpr h.greatest)

/-- A coefficient of one bit too many is the least one with the next exponent. -/
theorem pack_carry (negative : Bool) {e : ℤ} (h : e < maxExponent) :
    pack negative (2 ^ 53) e = .finite negative (2 ^ 52) (e + 1) := by
  unfold pack
  rw [if_neg (by norm_num), if_pos (show (2 : ℕ) ^ 53 = Nat.pow 2 53 from rfl)]
  exact if_neg (by omega)

/-- A coefficient whose exponent is too large overflows. -/
theorem pack_overflow (negative : Bool) {c : ℕ} {e : ℤ} (hc : c ≠ 0)
    (h : maxExponent < if c = 2 ^ 53 then e + 1 else e) :
    pack negative c e = .infinite negative := by
  unfold pack
  rw [if_neg hc]
  by_cases hfull : c = 2 ^ 53
  · rw [if_pos hfull] at h
    rw [if_pos (show c = Nat.pow 2 53 from hfull)]
    exact if_pos h
  · rw [if_neg hfull] at h
    rw [if_neg (show c ≠ Nat.pow 2 53 from hfull)]
    exact if_pos h

/-- The value of a rational on the grid of its exponent. -/
theorem scaled_bounds {q : ℚ} (hq : 0 < q) :
    q / 2 ^ gridExponent q < 2 ^ 53 ∧
      (minExponent < gridExponent q → 2 ^ 52 ≤ q / 2 ^ gridExponent q) := by
  have hpos := two_zpow_pos (gridExponent q)
  have hsplit : ∀ n : ℕ, (2 : ℚ) ^ n * 2 ^ gridExponent q = 2 ^ ((n : ℤ) + gridExponent q) := by
    intro n
    rw [zpow_add₀ (by norm_num), zpow_natCast]
  constructor
  · rw [div_lt_iff₀ hpos, hsplit, ← log_lt_iff hq]
    unfold gridExponent
    push_cast
    omega
  · intro h
    rw [le_div_iff₀ hpos, hsplit, ← le_log_iff hq]
    unfold gridExponent at h ⊢
    push_cast
    omega

/-- A rational is rounded by its exponent and the nearest coefficient there. -/
theorem round_of_grid (negative : Bool) {q : ℚ} {n : ℕ} {e : ℤ} (hq : 0 < q)
    (hgrid : gridExponent q = e) (h : |q / 2 ^ e - n| < 1 / 2) :
    round negative q = pack negative n e := by
  unfold round
  rw [if_neg hq.ne', hgrid, nearest_eq (div_nonneg hq.le (two_zpow_pos e).le) h]

section Near

variable {q : ℚ} {c : ℕ} {e : ℤ}

theorem near_bounds (h : |q - c * 2 ^ e| < 2 ^ (e - 2)) :
    c * 2 ^ e - 2 ^ e / 4 < q ∧ q < c * 2 ^ e + 2 ^ e / 4 := by
  have hquarter : (2 : ℚ) ^ (e - 2) = 2 ^ e / 4 := by
    rw [zpow_sub₀ (by norm_num)]
    norm_num
  obtain ⟨hlow, hhigh⟩ := abs_lt.mp (hquarter ▸ h)
  constructor <;> linarith

theorem pos_of_near (hc : IsPlace c e) (h : |q - c * 2 ^ e| < 2 ^ (e - 2)) : 0 < q := by
  have hpos := two_zpow_pos e
  have hcpos : (1 : ℚ) ≤ c := by exact_mod_cast hc.positive
  obtain ⟨hlow, -⟩ := near_bounds h
  nlinarith

/-- What lies near a number is on its grid, or just below a power of two, where the grid is twice as
fine. -/
theorem grid_of_near (hc : IsPlace c e) (h : |q - c * 2 ^ e| < 2 ^ (e - 2)) :
    gridExponent q = e ∨ gridExponent q = e - 1 ∧ c = 2 ^ 52 := by
  have hpos := two_zpow_pos e
  have hcbits : (c : ℚ) + 1 ≤ 2 ^ 53 := by exact_mod_cast hc.bits
  have hle := hc.least
  have hq := pos_of_near hc h
  obtain ⟨hlow, hhigh⟩ := near_bounds h
  have hsplit : ∀ n : ℕ, (2 : ℚ) ^ ((n : ℤ) + e) = 2 ^ n * 2 ^ e := by
    intro n
    rw [zpow_add₀ (by norm_num), zpow_natCast]
  have hbelow : Int.log 2 q < 53 + e := by
    rw [log_lt_iff hq, show (53 : ℤ) + e = ((53 : ℕ) : ℤ) + e from rfl, hsplit]
    nlinarith
  by_cases hgrid : gridExponent q = e
  · exact .inl hgrid
  unfold gridExponent at hgrid ⊢
  have hshort : Int.log 2 q < 52 + e := by omega
  have hfull : 2 ^ 52 ≤ c := hc.full.resolve_right (by omega)
  have hq52 : q < 2 ^ 52 * 2 ^ e := by
    rw [← hsplit]
    exact (log_lt_iff hq _).mp hshort
  have hc52 : c = 2 ^ 52 := by
    have hlt : (c : ℚ) < 2 ^ 52 + 1 := by nlinarith
    have hlt' : c < 2 ^ 52 + 1 := by exact_mod_cast hlt
    omega
  have hlong : 51 + e ≤ Int.log 2 q := by
    rw [le_log_iff hq, show (51 : ℤ) + e = ((51 : ℕ) : ℤ) + e from rfl, hsplit]
    rw [hc52] at hlow
    push_cast at hlow
    nlinarith
  exact .inr ⟨by omega, hc52⟩

/-- **What lies within a quarter of the last place of a number is rounded to that number.** -/
theorem round_of_near (negative : Bool) (hc : IsPlace c e) (h : |q - c * 2 ^ e| < 2 ^ (e - 2)) :
    round negative q = .finite negative c e := by
  have hpos := two_zpow_pos e
  have hq := pos_of_near hc h
  obtain ⟨hlow, hhigh⟩ := near_bounds h
  rcases grid_of_near hc h with hgrid | ⟨hgrid, rfl⟩
  · rw [round_of_grid negative (n := c) hq hgrid, pack_place negative hc]
    rw [abs_lt, sub_lt_iff_lt_add, div_lt_iff₀ hpos, lt_sub_iff_add_lt, lt_div_iff₀ hpos]
    constructor <;> nlinarith
  · have hhalf : (2 : ℚ) ^ (e - 1) = 2 ^ e / 2 := by
      rw [zpow_sub₀ (by norm_num)]
      norm_num
    have hnear : |q / 2 ^ (e - 1) - ((2 ^ 53 : ℕ) : ℚ)| < 1 / 2 := by
      push_cast at hlow hhigh ⊢
      rw [hhalf, abs_lt, sub_lt_iff_lt_add, div_lt_iff₀ (by positivity), lt_sub_iff_add_lt,
        lt_div_iff₀ (by positivity)]
      constructor <;> nlinarith
    have hgreatest := hc.greatest
    rw [round_of_grid negative hq hgrid hnear, pack_carry negative (by omega), Int.sub_add_cancel]

end Near

/-- What is too large for the format is rounded to an infinity. -/
theorem round_of_large (negative : Bool) {q : ℚ} (h : 2 ^ (1024 : ℤ) ≤ q) :
    round negative q = .infinite negative := by
  have hq : 0 < q := lt_of_lt_of_le (two_zpow_pos _) h
  have hlog : 1024 ≤ Int.log 2 q := (le_log_iff hq _).mpr h
  have hgrid : maxExponent < gridExponent q := by
    unfold gridExponent maxExponent
    omega
  have hcoefficient : nearest (q / 2 ^ gridExponent q) ≠ 0 := by
    intro hzero
    have hnear := abs_nearest_sub_le (div_nonneg hq.le (two_zpow_pos (gridExponent q)).le)
    have hlow := (scaled_bounds hq).2 (by unfold minExponent; unfold maxExponent at hgrid; omega)
    rw [hzero, abs_le] at hnear
    norm_num at hnear hlow
    linarith
  unfold round
  rw [if_neg hq.ne', pack_overflow negative hcoefficient]
  split <;> omega

/-- What is less than half the least number of the format is rounded to zero. -/
theorem round_of_small (negative : Bool) {q : ℚ} (hq : 0 ≤ q) (h : q < 2 ^ (-1075 : ℤ)) :
    round negative q = .finite negative 0 0 := by
  rcases hq.eq_or_lt with rfl | hq
  · exact if_pos rfl
  · have hlog : Int.log 2 q < -1075 := (log_lt_iff hq _).mpr h
    have hgrid : gridExponent q = -1074 := by
      unfold gridExponent minExponent
      omega
    have hhalf : (2 : ℚ) ^ (-1075 : ℤ) = 2 ^ (-1074 : ℤ) / 2 := by
      rw [show (-1075 : ℤ) = -1074 - 1 from rfl, zpow_sub₀ (by norm_num)]
      norm_num
    have hnear : |q / 2 ^ (-1074 : ℤ) - ((0 : ℕ) : ℚ)| < 1 / 2 := by
      have hpos := two_zpow_pos (-1074)
      rw [hhalf] at h
      rw [Nat.cast_zero, sub_zero, abs_of_nonneg (div_nonneg hq.le hpos.le), div_lt_iff₀ hpos]
      linarith
    rw [round_of_grid negative hq hgrid hnear]
    rfl

/-! ## 4. Numbers of the format -/

/-- The number is one of the format, in the one form that it has there. -/
def Canonical : Double → Prop
  | .nan => True
  | .infinite _ => True
  | .finite _ c e => c = 0 ∧ e = 0 ∨ IsPlace c e

/-- What a rational is rounded to is a number of the format. -/
theorem canonical_round (negative : Bool) {q : ℚ} (hq : 0 ≤ q) : (round negative q).Canonical := by
  rcases hq.eq_or_lt with rfl | hq
  · exact .inl ⟨rfl, rfl⟩
  have hnear := abs_le.mp
    (abs_nearest_sub_le (div_nonneg hq.le (two_zpow_pos (gridExponent q)).le))
  obtain ⟨hhigh, hlow⟩ := scaled_bounds hq
  have hleast : minExponent ≤ gridExponent q := le_max_left _ _
  unfold round
  rw [if_neg hq.ne']
  generalize q / 2 ^ gridExponent q = scaled at hnear hhigh hlow
  generalize gridExponent q = e at hlow hleast
  generalize nearest scaled = n at hnear
  have hn : n ≤ 2 ^ 53 := by
    have h : (n : ℚ) < 2 ^ 53 + 1 := by linarith
    have h' : n < 2 ^ 53 + 1 := by exact_mod_cast h
    omega
  rcases hn.eq_or_lt with rfl | hn
  · by_cases he : e < maxExponent
    · rw [pack_carry negative he]
      exact .inr ⟨by norm_num, by norm_num, by omega, by omega, .inl le_rfl⟩
    · rw [pack_overflow negative (by norm_num) (by rw [if_pos rfl]; omega)]
      trivial
  · by_cases hzero : n = 0
    · unfold pack
      rw [if_pos hzero]
      exact .inl ⟨rfl, rfl⟩
    · by_cases he : e ≤ maxExponent
      · have hfull : 2 ^ 52 ≤ n ∨ e = minExponent := by
          rcases hleast.eq_or_lt with h | h
          · exact .inr h.symm
          · have h52 : (2 : ℚ) ^ 52 < n + 1 := by linarith [hlow h]
            have h52' : 2 ^ 52 < n + 1 := by exact_mod_cast h52
            exact .inl (by omega)
        have hplace : IsPlace n e := ⟨Nat.pos_of_ne_zero hzero, hn, hleast, he, hfull⟩
        rw [pack_place negative hplace]
        exact .inr hplace
      · rw [pack_overflow negative hzero (by rw [if_neg hn.ne]; omega)]
        trivial

/-! ## 5. Decimals -/

/-- A power of ten lies between the powers of eight and of sixteen. -/
theorem ten_zpow_bounds (e : ℤ) :
    (0 ≤ e → (2 : ℚ) ^ (3 * e) ≤ 10 ^ e ∧ (10 : ℚ) ^ e ≤ 2 ^ (4 * e)) ∧
      (e ≤ 0 → (2 : ℚ) ^ (4 * e) ≤ 10 ^ e ∧ (10 : ℚ) ^ e ≤ 2 ^ (3 * e)) := by
  have height : ∀ k : ℤ, (2 : ℚ) ^ (3 * k) = 8 ^ k := by
    intro k
    rw [zpow_mul]
    norm_num
  have hsixteen : ∀ k : ℤ, (2 : ℚ) ^ (4 * k) = 16 ^ k := by
    intro k
    rw [zpow_mul]
    norm_num
  rw [height, hsixteen]
  constructor
  · intro he
    exact ⟨zpow_le_zpow_left₀ he (by norm_num) (by norm_num),
      zpow_le_zpow_left₀ he (by norm_num) (by norm_num)⟩
  · intro he
    obtain ⟨k, rfl⟩ : ∃ k : ℕ, e = -(k : ℤ) := ⟨(-e).toNat, by omega⟩
    simp only [zpow_neg, zpow_natCast]
    constructor
    · exact inv_anti₀ (by positivity) (pow_le_pow_left₀ (by norm_num) (by norm_num) k)
    · exact inv_anti₀ (by positivity) (pow_le_pow_left₀ (by norm_num) (by norm_num) k)

/-- The value of a decimal. -/
def decimalValue (digits : ℕ) (e : ℤ) : ℚ := digits * 10 ^ e

theorem decimalValue_nonneg (digits : ℕ) (e : ℤ) : 0 ≤ decimalValue digits e := by
  unfold decimalValue
  positivity

/-- The value of a decimal between powers of two, given bounds for the power of ten. -/
theorem decimalValue_bounds {digits : ℕ} {e low high : ℤ} (hd : digits ≠ 0)
    (hlow : (2 : ℚ) ^ low ≤ 10 ^ e) (hhigh : (10 : ℚ) ^ e ≤ 2 ^ high) :
    (2 : ℚ) ^ ((digits.log2 : ℤ) + low) ≤ decimalValue digits e ∧
      decimalValue digits e < 2 ^ ((digits.log2 : ℤ) + 1 + high) := by
  have hfirst : (2 : ℚ) ^ (digits.log2 : ℤ) ≤ digits := by
    rw [zpow_natCast]
    exact_mod_cast Nat.log2_self_le hd
  have hlast : (digits : ℚ) < 2 ^ ((digits.log2 : ℤ) + 1) := by
    rw [show ((digits.log2 : ℤ) + 1) = ((digits.log2 + 1 : ℕ) : ℤ) from rfl, zpow_natCast]
    exact_mod_cast Nat.lt_log2_self (n := digits)
  unfold decimalValue
  constructor
  · rw [zpow_add₀ (by norm_num)]
    exact mul_le_mul hfirst hlow (two_zpow_pos _).le (by positivity)
  · rw [zpow_add₀ (by norm_num)]
    exact mul_lt_mul hlast hhigh (by positivity) (two_zpow_pos _).le

/-- **A decimal is rounded correctly**, also where the answer is given without the power of ten. -/
theorem ofDecimal_eq (negative : Bool) (digits : ℕ) (e : ℤ) :
    ofDecimal negative digits e = round negative (decimalValue digits e) := by
  have hmono : ∀ {m n : ℤ}, m ≤ n → (2 : ℚ) ^ m ≤ 2 ^ n :=
    fun h => zpow_le_zpow_right₀ (by norm_num) h
  obtain ⟨habove, hbelow⟩ := ten_zpow_bounds e
  unfold ofDecimal
  dsimp only
  split
  · rename_i hd
    subst hd
    unfold decimalValue round
    rw [if_pos (by simp)]
  rename_i hd
  split
  · rename_i hlarge
    refine (round_of_large negative ?_).symm
    rcases le_total 0 e with he | he
    · obtain ⟨hlow, hhigh⟩ := habove he
      exact (hmono (by omega)).trans (decimalValue_bounds hd hlow hhigh).1
    · obtain ⟨hlow, hhigh⟩ := hbelow he
      exact (hmono (by omega)).trans (decimalValue_bounds hd hlow hhigh).1
  split
  · rename_i hsmall
    have he : e ≤ 0 := by omega
    obtain ⟨hlow, hhigh⟩ := hbelow he
    refine (round_of_small negative (decimalValue_nonneg _ _) ?_).symm
    exact (decimalValue_bounds hd hlow hhigh).2.trans_le (hmono (by omega))
  split
  · rename_i he
    obtain ⟨k, rfl⟩ := Int.eq_ofNat_of_zero_le he
    rw [ofFraction_eq negative _ Nat.one_pos]
    congr 1
    unfold decimalValue
    rw [Int.toNat_natCast, zpow_natCast, Nat.cast_one, div_one, Nat.cast_mul]
    exact congrArg _ (Nat.cast_pow 10 k)
  · rename_i he
    obtain ⟨k, rfl⟩ : ∃ k : ℕ, e = -(k : ℤ) := ⟨(-e).toNat, by omega⟩
    have hpos : 0 < Nat.pow 10 k := Nat.pow_pos (by norm_num)
    rw [neg_neg, Int.toNat_natCast, ofFraction_eq negative _ hpos]
    congr 1
    unfold decimalValue
    rw [zpow_neg, zpow_natCast, ← div_eq_mul_inv]
    exact congrArg _ (Nat.cast_pow 10 k)

end Dissect.Double
