/-
# Numbers read back

A whole number is written in decimal digits, and a floating-point number as a decimal of few digits,
positionally or with an exponent.  Here it is shown that reading such a text gives the number back,
whatever follows it, as long as that does not go on with the number (`Json.Ends`).

For a floating-point number there are two things to show.  The layout does not matter: with a point
or an exponent, with zeros in front or behind, the text stands for the decimal it was made from
(`readNumber_decimalText`).  And there is a decimal to be found: the search for the shortest one goes
from coarse grids to fine ones, and on the last of the forty grids that it may come to, the nearest
decimal lies within a quarter of the number's last place (`fine_enough`), so that it reads back as
the number.
-/
import Dissect.Json.Parser
import Dissect.Json.Printer
import Dissect.Proofs.Rounding

namespace Dissect

open Double (Decimal digitsValue ofDecimal IsPlace decimalValue)
open Text (isDigit)

/-! ## 1. Digits -/

theorem isDigit_eq (c : Char) : isDigit c = c.isDigit := by
  unfold isDigit Char.isDigit
  simp only [Char.le_def, ge_iff_le]

/-- Nothing but digits. -/
def AllDigits (cs : List Char) : Prop := ∀ c ∈ cs, isDigit c = true

theorem allDigits_toDigits (n : Nat) : AllDigits (Nat.toDigits 10 n) := by
  intro c hc
  rw [isDigit_eq]
  exact Nat.isDigit_of_mem_toDigits (by decide) (by decide) hc

theorem allDigits_zeros (k : Nat) : AllDigits (List.replicate k '0') := by
  intro c hc
  rw [List.eq_of_mem_replicate hc]
  decide

theorem AllDigits.append {cs ds : List Char} (hc : AllDigits cs) (hd : AllDigits ds) :
    AllDigits (cs ++ ds) := by
  intro c hm
  rcases List.mem_append.mp hm with hm | hm
  · exact hc c hm
  · exact hd c hm

/-- The digits of a number other than zero do not begin with a zero. -/
theorem head_toDigits {n : Nat} (hn : 0 < n) : (Nat.toDigits 10 n).head? ≠ some '0' := by
  induction n using Nat.strong_induction_on with
  | _ n ih =>
    by_cases hsmall : n < 10
    · rw [Nat.toDigits_of_lt_base hsmall, List.head?_cons]
      have hdigit : ∀ k : Fin 10, 0 < k.val → Nat.digitChar k.val ≠ '0' := by decide
      exact fun h => hdigit ⟨n, hsmall⟩ hn (Option.some.inj h)
    · rw [Nat.toDigits_of_base_le (by decide) (by omega),
        List.head?_append_of_ne_nil _ Nat.toDigits_ne_nil]
      exact ih (n / 10) (by omega) (by omega)

theorem digitsValue_eq (cs : List Char) : digitsValue cs = Nat.ofDigitChars 10 cs 0 := by
  unfold digitsValue
  rw [Nat.ofDigitChars_eq_foldl]
  simp only [Nat.mul_comm]

theorem digitsValue_toDigits (n : Nat) : digitsValue (Nat.toDigits 10 n) = n := by
  rw [digitsValue_eq, Nat.ofDigitChars_ten_toDigits]

theorem digitsValue_append (cs ds : List Char) :
    digitsValue (cs ++ ds) = digitsValue cs * 10 ^ ds.length + digitsValue ds := by
  rw [digitsValue_eq, digitsValue_eq, digitsValue_eq, Nat.ofDigitChars_append,
    Nat.ofDigitChars_eq_ofDigitChars_zero, Nat.mul_comm]

theorem digitsValue_zeros (k : Nat) : digitsValue (List.replicate k '0') = 0 := by
  rw [digitsValue_eq, Nat.ofDigitChars_replicate_zero, Nat.mul_zero]

theorem toList_toString (n : Nat) : (toString n).toList = Nat.toDigits 10 n := by
  rw [Nat.toString_eq_ofList_toDigits, String.toList_ofList]

namespace Json

/-! ## 2. The parts of a number -/

/-- What follows does not go on with a number. -/
def Ends (rest : List Char) : Prop :=
  ∀ c ∈ rest.head?, isDigit c = false ∧ c ≠ '.' ∧ c ≠ 'e' ∧ c ≠ 'E'

/-- What follows does not begin with a digit. -/
def NoDigit (rest : List Char) : Prop := ∀ c ∈ rest.head?, isDigit c = false

theorem Ends.noDigit {rest : List Char} (h : Ends rest) : NoDigit rest := fun c hc => (h c hc).1

theorem noDigit_cons {c : Char} {rest : List Char} (hc : isDigit c = false) : NoDigit (c :: rest) :=
  fun _ hd => Option.some.inj hd ▸ hc

variable {digits whole fraction rest : List Char}

theorem takeWhile_digits (hd : AllDigits digits) (hr : NoDigit rest) :
    (digits ++ rest).takeWhile isDigit = digits ∧ (digits ++ rest).dropWhile isDigit = rest := by
  have hrest : rest.takeWhile isDigit = [] ∧ rest.dropWhile isDigit = rest := by
    cases rest with
    | nil => exact ⟨rfl, rfl⟩
    | cons c tail =>
      have hc := hr c rfl
      exact ⟨by rw [List.takeWhile_cons, hc]; rfl, by rw [List.dropWhile_cons, hc]; rfl⟩
  rw [List.takeWhile_append_of_pos hd, List.dropWhile_append_of_pos hd, hrest.1, hrest.2]
  exact ⟨List.append_nil _, rfl⟩

/-- The digits may stand before the point: a zero alone, or digits that do not begin with one. -/
structure IsWhole (digits : List Char) : Prop where
  all : AllDigits digits
  nonempty : digits ≠ []
  leading : digits = ['0'] ∨ digits.head? ≠ some '0'

theorem isWhole_toDigits (n : Nat) : IsWhole (Nat.toDigits 10 n) := by
  refine ⟨allDigits_toDigits n, Nat.toDigits_ne_nil, ?_⟩
  rcases Nat.eq_zero_or_pos n with rfl | hn
  · exact .inl (Nat.toDigits_zero 10)
  · exact .inr (head_toDigits hn)

theorem readWhole_append (hw : IsWhole whole) (hr : NoDigit rest) :
    readWhole (whole ++ rest) = some (whole, rest) := by
  obtain ⟨htake, hdrop⟩ := takeWhile_digits hw.all hr
  rcases hw.leading with rfl | hleading
  · rfl
  · obtain ⟨c, tail, rfl⟩ := List.exists_cons_of_ne_nil hw.nonempty
    unfold readWhole
    split
    · rename_i hzero
      obtain ⟨rfl, -⟩ := List.cons.inj hzero
      exact absurd rfl hleading
    · rw [htake, hdrop]

theorem readFraction_append (hd : AllDigits fraction) (hne : fraction ≠ []) (hr : NoDigit rest) :
    readFraction ('.' :: (fraction ++ rest)) = some (fraction, rest) := by
  obtain ⟨htake, hdrop⟩ := takeWhile_digits hd hr
  obtain ⟨c, tail, rfl⟩ := List.exists_cons_of_ne_nil hne
  simp only [readFraction, htake, hdrop]

theorem readFraction_none (h : ∀ c ∈ rest.head?, c ≠ '.') : readFraction rest = none := by
  cases rest with
  | nil => rfl
  | cons c tail =>
    unfold readFraction
    split
    · rename_i heq
      obtain ⟨rfl, -⟩ := List.cons.inj heq
      exact absurd rfl (h '.' rfl)
    · rfl

theorem readExponent_none (h : ∀ c ∈ rest.head?, c ≠ 'e' ∧ c ≠ 'E') : readExponent rest = none := by
  cases rest with
  | nil => rfl
  | cons c tail =>
    obtain ⟨he, hE⟩ := h c rfl
    simp [readExponent, he, hE]

theorem readExponentDigits_append (negative : Bool) (hd : AllDigits digits) (hne : digits ≠ [])
    (hr : NoDigit rest) :
    readExponentDigits negative (digits ++ rest) =
      some (if negative then -(digitsValue digits : Int) else digitsValue digits, rest) := by
  obtain ⟨htake, hdrop⟩ := takeWhile_digits hd hr
  obtain ⟨c, tail, rfl⟩ := List.exists_cons_of_ne_nil hne
  unfold readExponentDigits
  rw [htake, hdrop]

/-- The digits of an exponent: at least two. -/
theorem exponent_digits (n : Nat) :
    ∃ digits, (if n < 10 then "0" ++ toString n else toString n).toList = digits ∧
      AllDigits digits ∧ digits ≠ [] ∧ digitsValue digits = n := by
  split
  · refine ⟨'0' :: Nat.toDigits 10 n, ?_, ?_, List.cons_ne_nil _ _, ?_⟩
    · rw [String.toList_append, toList_toString]
      rfl
    · exact AllDigits.append (allDigits_zeros 1) (allDigits_toDigits n)
    · rw [show '0' :: Nat.toDigits 10 n = List.replicate 1 '0' ++ Nat.toDigits 10 n from rfl,
        digitsValue_append, digitsValue_zeros, digitsValue_toDigits]
      omega
  · exact ⟨_, toList_toString n, allDigits_toDigits n, Nat.toDigits_ne_nil, digitsValue_toDigits n⟩

theorem readExponent_exponentText (e : Int) (hr : NoDigit rest) :
    readExponent ((Double.exponentText e).toList ++ rest) = some (e, rest) := by
  obtain ⟨digits, htext, hd, hne, hvalue⟩ := exponent_digits e.natAbs
  unfold Double.exponentText
  dsimp only
  rw [String.toList_append, htext]
  split
  · rename_i hneg
    show readExponentDigits true (digits ++ rest) = _
    rw [readExponentDigits_append true hd hne hr, hvalue]
    congr 2
    simp only [if_true]
    omega
  · rename_i hpos
    show readExponentDigits false (digits ++ rest) = _
    rw [readExponentDigits_append false hd hne hr, hvalue]
    congr 2
    simp only [Bool.false_eq_true, if_false]
    omega

/-! ## 3. Whole numbers -/

theorem Ends.noFraction (h : Ends rest) : readFraction rest = none :=
  readFraction_none fun c hc => (h c hc).2.1

theorem Ends.noExponent (h : Ends rest) : readExponent rest = none :=
  readExponent_none fun c hc => (h c hc).2.2

/-- A whole number of not too many digits is read as it stands. -/
theorem readNumber_whole (negative : Bool) (hw : IsWhole whole) (hlen : whole.length ≤ maxDigits)
    (hr : Ends rest) :
    readNumber negative (whole ++ rest) =
      some (.int (if negative then -(digitsValue whole : Int) else digitsValue whole), rest) := by
  unfold readNumber
  rw [readWhole_append hw hr.noDigit]
  simp only [bind, Option.bind_some, hr.noFraction, Option.getD_none, hr.noExponent,
    List.isEmpty_nil, if_true, if_neg (Nat.not_lt.mpr hlen)]

/-- **A natural number of at most 4300 digits reads back.** -/
theorem readNumber_toString (negative : Bool) {n : Nat} (hn : n < 10 ^ maxDigits) (hr : Ends rest) :
    readNumber negative ((toString n).toList ++ rest) =
      some (.int (if negative then -(n : Int) else n), rest) := by
  have hlen : (Nat.toDigits 10 n).length ≤ maxDigits :=
    (Nat.length_toDigits_le_iff (by decide) (by decide)).mpr hn
  rw [toList_toString, readNumber_whole negative (isWhole_toDigits n) hlen hr,
    digitsValue_toDigits]

/-! ## 4. Decimals -/

/-- A number with a fraction. -/
theorem readNumber_fraction (negative : Bool) (hw : IsWhole whole) (hf : AllDigits fraction)
    (hne : fraction ≠ []) (hr : Ends rest) :
    readNumber negative (whole ++ '.' :: (fraction ++ rest)) =
      some (.real (Double.ofDigits negative whole fraction 0), rest) := by
  obtain ⟨c, tail, rfl⟩ := List.exists_cons_of_ne_nil hne
  unfold readNumber
  rw [readWhole_append hw (noDigit_cons (by decide))]
  simp only [bind, Option.bind_some, readFraction_append hf hne hr.noDigit, Option.getD_some,
    hr.noExponent, List.isEmpty_cons, Bool.false_eq_true, if_false]

/-- An exponent does not begin with a digit or a point. -/
theorem exponentText_head (e : Int) :
    ∃ tail, (Double.exponentText e).toList = 'e' :: tail := by
  unfold Double.exponentText
  dsimp only
  rw [String.toList_append]
  split <;> exact ⟨_, rfl⟩

theorem noDigit_exponentText (e : Int) (rest : List Char) :
    NoDigit ((Double.exponentText e).toList ++ rest) := by
  obtain ⟨tail, htail⟩ := exponentText_head e
  rw [htail]
  exact noDigit_cons (by decide)

/-- A number with an exponent. -/
theorem readNumber_exponent (negative : Bool) (e : Int) (hw : IsWhole whole) (hr : NoDigit rest) :
    readNumber negative (whole ++ ((Double.exponentText e).toList ++ rest)) =
      some (.real (Double.ofDigits negative whole [] e), rest) := by
  have hfraction : readFraction ((Double.exponentText e).toList ++ rest) = none := by
    obtain ⟨tail, htail⟩ := exponentText_head e
    rw [htail]
    rfl
  unfold readNumber
  rw [readWhole_append hw (noDigit_exponentText e rest)]
  simp only [bind, Option.bind_some, hfraction, Option.getD_none, readExponent_exponentText e hr]

/-- A number with a fraction and an exponent. -/
theorem readNumber_scientific (negative : Bool) (e : Int) (hw : IsWhole whole)
    (hf : AllDigits fraction) (hne : fraction ≠ []) (hr : NoDigit rest) :
    readNumber negative
        (whole ++ '.' :: (fraction ++ ((Double.exponentText e).toList ++ rest))) =
      some (.real (Double.ofDigits negative whole fraction e), rest) := by
  unfold readNumber
  rw [readWhole_append hw (noDigit_cons (by decide))]
  simp only [bind, Option.bind_some, readFraction_append hf hne (noDigit_exponentText e rest),
    Option.getD_some, readExponent_exponentText e hr]

/-- What digits around a point and an exponent stand for. -/
theorem ofDigits_eq (negative : Bool) (whole fraction : List Char) (e : Int) :
    Double.ofDigits negative whole fraction e =
      Double.round negative
        (decimalValue (digitsValue (whole ++ fraction)) (e - fraction.length)) := by
  unfold Double.ofDigits
  exact Double.ofDecimal_eq _ _ _

/-- The value of a decimal with zeros behind its digits. -/
theorem decimalValue_zeros (digits k : ℕ) (e : ℤ) :
    decimalValue (digits * 10 ^ k) e = decimalValue digits (e + k) := by
  unfold Double.decimalValue
  rw [zpow_add₀ (by norm_num), zpow_natCast]
  push_cast
  ring

/-- The first digits of a number that is not zero, with others behind them, may stand before a
point. -/
theorem isWhole_append {n : Nat} (hn : n ≠ 0) {k : Nat} (hk : 0 < k) {more : List Char}
    (hmore : AllDigits more) : IsWhole ((Nat.toDigits 10 n).take k ++ more) := by
  have hhead := head_toDigits (Nat.pos_of_ne_zero hn)
  obtain ⟨c, tail, hdigits⟩ := List.exists_cons_of_ne_nil (Nat.toDigits_ne_nil (n := n) (b := 10))
  have hall := allDigits_toDigits n
  rw [hdigits] at hhead hall ⊢
  obtain ⟨k, rfl⟩ := Nat.exists_eq_succ_of_ne_zero hk.ne'
  refine ⟨AllDigits.append (fun d hm => hall d (List.mem_of_mem_take hm)) hmore, ?_, .inr ?_⟩
  · simp
  · simpa using hhead

/-- With a point between its digits, a text stands for the decimal of them all. -/
theorem readNumber_point (negative : Bool) (hw : IsWhole whole) (hf : AllDigits fraction)
    (hne : fraction ≠ []) (hr : Ends rest) :
    readNumber negative (whole ++ '.' :: (fraction ++ rest)) =
      some (.real (Double.round negative
        (decimalValue (digitsValue (whole ++ fraction)) (-fraction.length))), rest) := by
  rw [readNumber_fraction negative hw hf hne hr, ofDigits_eq, Int.zero_sub]

/-- All digits may stand behind the point, after zeros. -/
theorem readNumber_behind (negative : Bool) (k : Nat) (hd : AllDigits digits) (hne : digits ≠ [])
    (hr : Ends rest) :
    readNumber negative ('0' :: '.' :: (List.replicate k '0' ++ digits ++ rest)) =
      some (.real (Double.round negative
        (decimalValue (digitsValue digits) (-(k + digits.length : Nat)))), rest) := by
  have hzeros : ['0'] ++ (List.replicate k '0' ++ digits) =
      List.replicate (k + 1) '0' ++ digits := rfl
  have h := readNumber_point negative (isWhole_toDigits 0) ((allDigits_zeros k).append hd)
    (List.append_ne_nil_of_right_ne_nil _ hne) hr
  rw [Nat.toDigits_zero, hzeros, digitsValue_append, digitsValue_zeros, Nat.zero_mul, Nat.zero_add,
    List.length_append, List.length_replicate] at h
  exact h

/-- All digits may stand before the point, with zeros behind them. -/
theorem readNumber_before (negative : Bool) (k : Nat)
    (hw : IsWhole (digits ++ List.replicate k '0')) (hr : Ends rest) :
    readNumber negative (digits ++ List.replicate k '0' ++ '.' :: '0' :: rest) =
      some (.real (Double.round negative (decimalValue (digitsValue digits) k)), rest) := by
  have hexponent : -((List.replicate 1 '0').length : Int) + ((k + 1 : Nat) : Int) = k := by
    rw [List.length_replicate]
    omega
  have h := readNumber_point negative hw (allDigits_zeros 1) (List.cons_ne_nil _ _) hr
  refine h.trans ?_
  rw [List.append_assoc, ← List.replicate_add, digitsValue_append, digitsValue_zeros, Nat.add_zero,
    List.length_replicate, decimalValue_zeros, hexponent]

/-- An exponent may stand behind the first digit, or behind a point and all the others. -/
theorem readNumber_leading (negative : Bool) (e : Int) {c : Char} {others : List Char}
    (hc : IsWhole [c]) (hd : AllDigits others) (hr : Ends rest) :
    readNumber negative
        ((if others = [] then [c] else c :: '.' :: others) ++
          ((Double.exponentText e).toList ++ rest)) =
      some (.real (Double.round negative
        (decimalValue (digitsValue (c :: others)) (e - others.length))), rest) := by
  split
  · rename_i hnone
    subst hnone
    rw [readNumber_exponent negative e hc hr.noDigit, ofDigits_eq]
    rfl
  · rename_i hsome
    refine (readNumber_scientific negative e hc hd hsome hr.noDigit).trans ?_
    rw [ofDigits_eq]
    rfl

/-- **The layout of a decimal does not matter**: it is read as the number nearest to the decimal. -/
theorem readNumber_decimalText (negative : Bool) {d : Decimal} (hd : d.digits ≠ 0) (hr : Ends rest) :
    readNumber negative (d.text.toList ++ rest) =
      some (.real (Double.round negative (decimalValue d.digits d.exponent)), rest) := by
  obtain ⟨n, e⟩ := d
  dsimp only at hd ⊢
  have hall := allDigits_toDigits n
  have hlen : 0 < (Nat.toDigits 10 n).length := Nat.length_toDigits_pos
  have hvalue := digitsValue_toDigits n
  have hpadded : ∀ k, IsWhole (Nat.toDigits 10 n ++ List.replicate k '0') := fun k => by
    have h := isWhole_append hd hlen (allDigits_zeros k)
    rwa [List.take_length] at h
  have htaken : ∀ k, 0 < k → IsWhole ((Nat.toDigits 10 n).take k) := fun k hk => by
    have h := isWhole_append hd hk (allDigits_zeros 0)
    rwa [List.replicate_zero, List.append_nil] at h
  unfold Decimal.text
  simp only [toList_toString]
  generalize hdigits : Nat.toDigits 10 n = digits at hall hlen hvalue hpadded htaken ⊢
  rw [← hvalue]
  split
  · split
    · -- all digits behind the point, after zeros
      rename_i hpoint
      have hexponent : -(((-(e + (digits.length : Int))).toNat + digits.length : Nat) : Int) = e := by
        omega
      rw [String.toList_ofList]
      refine (readNumber_behind negative _ hall (List.ne_nil_of_length_pos hlen) hr).trans ?_
      rw [hexponent]
    · split
      · -- all digits before the point, with zeros behind them
        rename_i hpoint hlong
        have hexponent : (((e + (digits.length : Int)).toNat - digits.length : Nat) : Int) = e := by
          omega
        rw [String.toList_ofList, List.append_assoc _ ['.', '0']]
        refine (readNumber_before negative _ (hpadded _) hr).trans ?_
        rw [hexponent]
      · -- the point stands between the digits
        rename_i hpoint hlong
        generalize hk : (e + (digits.length : Int)).toNat = k at hlong ⊢
        have hexponent : -((digits.drop k).length : Int) = e := by
          rw [List.length_drop]
          omega
        have hne : digits.drop k ≠ [] := by
          rw [← List.length_pos_iff, List.length_drop]
          omega
        rw [String.toList_ofList, List.append_assoc, List.cons_append,
          readNumber_point negative (htaken k (by omega))
            (fun c hm => hall c (List.mem_of_mem_drop hm)) hne hr,
          List.take_append_drop, hexponent]
  · -- an exponent stands behind the first digits
    obtain ⟨c, others, rfl⟩ := List.exists_cons_of_length_pos hlen
    have h := readNumber_leading negative (e + ((c :: others).length : Int) - 1)
      (htaken 1 Nat.one_pos)
      (fun d hm => hall d (List.mem_cons_of_mem _ hm)) hr
    have hexponent : e + ((c :: others).length : Int) - 1 - (others.length : Int) = e := by
      rw [List.length_cons]
      omega
    rw [hexponent] at h
    cases others with
    | nil =>
      rw [String.toList_append, String.toList_singleton, List.append_assoc]
      exact h
    | cons c' tail =>
      rw [String.toList_append, String.toList_ofList, List.append_assoc]
      exact h

end Json

/-! ## 5. The shortest decimal -/

namespace Double

variable {num den : ℕ} {target : Double}

/-- Scaling a fraction by a power of ten divides its value by it. -/
theorem scaled_by_ten (num : ℕ) (hd : 0 < den) (e : ℤ) :
    let scaled := if 0 ≤ e then (num, den * Nat.pow 10 e.toNat)
      else (num * Nat.pow 10 (-e).toNat, den)
    0 < scaled.2 ∧ (scaled.1 : ℚ) / scaled.2 = (num : ℚ) / den / 10 ^ e := by
  have hd' : (den : ℚ) ≠ 0 := by exact_mod_cast hd.ne'
  have hcast : ∀ k : ℕ, ((Nat.pow 10 k : ℕ) : ℚ) = 10 ^ k := fun k => Nat.cast_pow 10 k
  intro scaled
  by_cases he : 0 ≤ e
  · have hscaled : scaled = (num, den * Nat.pow 10 e.toNat) := if_pos he
    obtain ⟨k, rfl⟩ := Int.eq_ofNat_of_zero_le he
    rw [hscaled]
    refine ⟨Nat.mul_pos hd (Nat.pow_pos (by norm_num)), ?_⟩
    simp only [Int.toNat_natCast, zpow_natCast, Nat.cast_mul, hcast]
    rw [div_div]
  · have hscaled : scaled = (num * Nat.pow 10 (-e).toNat, den) := if_neg he
    obtain ⟨k, rfl⟩ : ∃ k : ℕ, e = -(k : ℤ) := ⟨(-e).toNat, by omega⟩
    rw [hscaled]
    refine ⟨hd, ?_⟩
    simp only [neg_neg, Int.toNat_natCast, zpow_neg, zpow_natCast, Nat.cast_mul, hcast]
    field_simp

/-- Rounding a quotient goes down or up. -/
theorem roundQuotient_cases (num den : ℕ) :
    roundQuotient num den = num / den ∨ roundQuotient num den = num / den + 1 := by
  unfold roundQuotient
  dsimp only
  split
  · exact .inr rfl
  · exact .inl rfl

/-- The nearest decimal on a grid is one of the two that are tried. -/
theorem nearest_mem_neighbours (num : ℕ) (hd : 0 < den) (e : ℤ) :
    (⟨nearest ((num : ℚ) / den / 10 ^ e), e⟩ : Decimal) ∈ neighbours num den e := by
  obtain ⟨hpos, hvalue⟩ := scaled_by_ten num hd e
  rw [← hvalue, ← roundQuotient_eq hpos]
  unfold neighbours
  generalize (if 0 ≤ e then (num, den * Nat.pow 10 e.toNat)
    else (num * Nat.pow 10 (-e).toNat, den)) = scaled
  obtain ⟨n, d⟩ := scaled
  dsimp only
  rcases roundQuotient_cases n d with h | h
  · rw [h, if_pos rfl]
    exact List.mem_cons_self
  · rw [h, if_neg (by omega)]
    exact List.mem_cons_self

/-- The search finds a decimal that reads back if there is one on a grid that it comes to. -/
theorem shortestFrom_reads {k : ℕ} : ∀ {fuel : ℕ} {e : ℤ}, k < fuel →
    (∃ d ∈ neighbours num den (e - k), ofParts false d = target) →
      ofParts false (shortestFrom target num den fuel e) = target := by
  intro fuel
  induction fuel generalizing k with
  | zero => 
    intro e hk
    omega
  | succ fuel ih =>
    intro e hk hfound
    unfold shortestFrom
    cases hf : (neighbours num den e).find? (fun d => ofParts false d == target) with
    | some d =>
      have hreads := List.find?_some hf
      exact beq_iff_eq.mp hreads
    | none =>
      cases k with
      | zero =>
        obtain ⟨d, hmem, hreads⟩ := hfound
        rw [Int.natCast_zero, Int.sub_zero] at hmem
        exact absurd (beq_iff_eq.mpr hreads) (List.find?_eq_none.mp hf d hmem)
      | succ k =>
        refine ih (show k < fuel by omega) ?_
        rw [Int.sub_sub, Int.add_comm, ← Int.natCast_succ]
        exact hfound

/-- The fraction of a positive number has the number's value. -/
theorem fraction_eq (c : ℕ) (e : ℤ) :
    0 < (fraction false c e).2 ∧
      ((fraction false c e).1.toNat : ℚ) / (fraction false c e).2 = c * 2 ^ e := by
  unfold fraction
  simp only [Bool.false_eq_true, if_false]
  split
  · rename_i he
    obtain ⟨k, rfl⟩ := Int.eq_ofNat_of_zero_le he
    refine ⟨Nat.one_pos, ?_⟩
    rw [Int.toNat_natCast, zpow_natCast, Nat.cast_one, div_one, ← Nat.cast_mul, Int.toNat_natCast,
      Nat.cast_mul]
    exact congrArg _ (natPow_cast k)
  · rename_i he
    obtain ⟨k, rfl⟩ : ∃ k : ℕ, e = -(k : ℤ) := ⟨(-e).toNat, by omega⟩
    refine ⟨Nat.two_pow_pos _, ?_⟩
    rw [neg_neg, Int.toNat_natCast, Int.toNat_natCast, zpow_neg, zpow_natCast, ← div_eq_mul_inv]
    exact congrArg _ (natPow_cast k)

/-- A thousand is at most the tenth power of two. -/
theorem ten_pow_le (k : ℕ) : (10 : ℚ) ^ k ≤ 2 ^ (10 * (k / 3) + 4 * (k % 3)) := by
  calc (10 : ℚ) ^ k = (10 ^ 3) ^ (k / 3) * 10 ^ (k % 3) := by
        rw [← pow_mul, ← pow_add, Nat.div_add_mod]
    _ ≤ (2 ^ 10) ^ (k / 3) * (2 ^ 4) ^ (k % 3) :=
        mul_le_mul (pow_le_pow_left₀ (by norm_num) (by norm_num) _)
          (pow_le_pow_left₀ (by norm_num) (by norm_num) _) (by positivity) (by positivity)
    _ = 2 ^ (10 * (k / 3) + 4 * (k % 3)) := by rw [← pow_mul, ← pow_mul, ← pow_add]

/-- The 93rd power of two is at most the 28th of ten. -/
theorem le_ten_pow (k : ℕ) : (2 : ℚ) ^ (93 * (k / 28) + 3 * (k % 28)) ≤ 10 ^ k := by
  calc (2 : ℚ) ^ (93 * (k / 28) + 3 * (k % 28)) = (2 ^ 93) ^ (k / 28) * (2 ^ 3) ^ (k % 28) := by
        rw [← pow_mul, ← pow_mul, ← pow_add]
    _ ≤ (10 ^ 28) ^ (k / 28) * 10 ^ (k % 28) :=
        mul_le_mul (pow_le_pow_left₀ (by norm_num) (by norm_num) _)
          (pow_le_pow_left₀ (by norm_num) (by norm_num) _) (by positivity) (by positivity)
    _ = 10 ^ k := by rw [← pow_mul, ← pow_add, Nat.div_add_mod]

/-- **The last grid is fine enough**: its decimals are at most a quarter of the number's last place
apart. -/
theorem fine_enough {c : ℕ} {e : ℤ} (h : IsPlace c e) :
    (10 : ℚ) ^ (magnitude (fraction false c e).1.toNat (fraction false c e).2 - 39) ≤
      2 ^ (e - 2) := by
  obtain ⟨hden, hvalue⟩ := fraction_eq c e
  generalize (fraction false c e).1.toNat = num at hvalue ⊢
  generalize (fraction false c e).2 = den at hden hvalue ⊢
  have hpos : (0 : ℚ) < c * 2 ^ e :=
    mul_pos (by exact_mod_cast h.positive) (two_zpow_pos e)
  have hnum : 0 < num := by
    rcases Nat.eq_zero_or_pos num with rfl | hnum
    · rw [Nat.cast_zero, zero_div] at hvalue
      rw [← hvalue] at hpos
      exact absurd hpos (lt_irrefl _)
    · exact hnum
  have hlog : Int.log 2 ((c : ℚ) * 2 ^ e) < 53 + e := by
    rw [log_lt_iff hpos, zpow_add₀ (by norm_num)]
    refine mul_lt_mul_of_pos_right ?_ (two_zpow_pos e)
    exact_mod_cast h.bits
  obtain ⟨hsize, -⟩ := log_of_log2 hnum hden
  rw [hvalue] at hsize
  have hleast := h.least
  have hgreatest := h.greatest
  unfold minExponent at hleast
  unfold maxExponent at hgreatest
  unfold magnitude
  generalize (num.log2 : ℤ) - den.log2 = size at hsize
  rcases le_total 0 (size * 3 / 10 + 3 - 39) with hg | hg
  · obtain ⟨k, hk⟩ := Int.eq_ofNat_of_zero_le hg
    rw [hk, zpow_natCast]
    refine (ten_pow_le k).trans ?_
    rw [← zpow_natCast]
    refine zpow_le_zpow_right₀ (by norm_num) ?_
    push_cast
    omega
  · obtain ⟨k, hk⟩ : ∃ k : ℕ, size * 3 / 10 + 3 - 39 = -(k : ℤ) :=
      ⟨(-(size * 3 / 10 + 3 - 39)).toNat, by omega⟩
    rw [hk, zpow_neg, zpow_natCast]
    have hstep : (2 : ℚ) ^ (2 - e) ≤ 10 ^ k := by
      refine le_trans ?_ (le_ten_pow k)
      rw [← zpow_natCast]
      refine zpow_le_zpow_right₀ (by norm_num) ?_
      push_cast
      omega
    rw [show e - 2 = -(2 - e) by ring, zpow_neg]
    exact inv_anti₀ (two_zpow_pos _) hstep

/-- The decimal nearest to a number on a fine grid reads back as the number. -/
theorem nearest_reads {c : ℕ} {e g : ℤ} (h : IsPlace c e) (hg : (10 : ℚ) ^ g ≤ 2 ^ (e - 2)) :
    ofParts false ⟨nearest (c * 2 ^ e / 10 ^ g), g⟩ = .finite false c e := by
  unfold ofParts
  rw [ofDecimal_eq]
  refine round_of_near false h ?_
  have hten : (0 : ℚ) < 10 ^ g := by positivity
  have hquotient : (0 : ℚ) ≤ c * 2 ^ e / 10 ^ g := by positivity
  have hnear := abs_le.mp (abs_nearest_sub_le hquotient)
  have hvalue : (c : ℚ) * 2 ^ e / 10 ^ g * 10 ^ g = c * 2 ^ e := by field_simp
  unfold decimalValue
  generalize (c : ℚ) * 2 ^ e / 10 ^ g = quotient at *
  rw [← hvalue, ← sub_mul, abs_mul, abs_of_pos hten]
  have hclose : |(nearest quotient : ℚ) - quotient| ≤ 1 / 2 := abs_le.mpr hnear
  nlinarith

/-- **The decimal of the fewest digits reads back as the number.** -/
theorem shortest_reads {c : ℕ} {e : ℤ} (h : IsPlace c e) :
    ofParts false (shortest c e) = .finite false c e := by
  obtain ⟨hden, hvalue⟩ := fraction_eq c e
  have hfine := fine_enough h
  unfold shortest
  generalize hfraction : fraction false c e = parts at hden hvalue hfine ⊢
  obtain ⟨num, den⟩ := parts
  dsimp only at hden hvalue hfine ⊢
  refine shortestFrom_reads (show 39 < 40 by omega) ⟨_, nearest_mem_neighbours _ hden _, ?_⟩
  rw [hvalue]
  exact nearest_reads h hfine

/-- Taking zeros off the end of the digits leaves the value. -/
theorem trim_value : ∀ (fuel : ℕ) (d : Decimal),
    decimalValue (d.trim fuel).digits (d.trim fuel).exponent = decimalValue d.digits d.exponent ∧
      (d.digits ≠ 0 → (d.trim fuel).digits ≠ 0) := by
  intro fuel
  induction fuel with
  | zero => exact fun d => ⟨rfl, id⟩
  | succ fuel ih =>
    intro d
    unfold Decimal.trim
    split
    · rename_i hzero
      simp only [Bool.and_eq_true, decide_eq_true_eq, bne_iff_ne] at hzero
      obtain ⟨hvalue, hdigits⟩ := ih ⟨d.digits / 10, d.exponent + 1⟩
      refine ⟨hvalue.trans ?_, fun _ => hdigits ?_⟩
      · have hten : d.digits / 10 * 10 ^ 1 = d.digits := by omega
        have h := Json.decimalValue_zeros (d.digits / 10) 1 d.exponent
        rw [hten] at h
        exact h.symm
      · show d.digits / 10 ≠ 0
        omega
    · exact ⟨rfl, id⟩

/-- The sign plays no part in rounding. -/
theorem round_sign (negative : Bool) {q : ℚ} {c : ℕ} {e : ℤ}
    (h : round false q = .finite false c e) : round negative q = .finite negative c e := by
  unfold round pack at h ⊢
  split at h
  · cases h
    rename_i hq
    rw [if_pos hq]
  · rename_i hq
    rw [if_neg hq]
    split at h
    · cases h
      rename_i hzero
      rw [if_pos hzero]
    · rename_i hzero
      rw [if_neg hzero]
      split at h
      rename_i _ exponent _
      by_cases hgreatest : maxExponent < exponent
      · rw [if_pos hgreatest] at h
        cases h
      · rw [if_neg hgreatest] at h ⊢
        cases h
        rfl

/-- The decimal that a positive number is written as. -/
theorem written_decimal {c : ℕ} {e : ℤ} (h : IsPlace c e) :
    ((shortest c e).trim 20).digits ≠ 0 ∧
      round false (decimalValue ((shortest c e).trim 20).digits
        ((shortest c e).trim 20).exponent) = .finite false c e := by
  have hreads := shortest_reads h
  unfold ofParts at hreads
  rw [ofDecimal_eq] at hreads
  obtain ⟨hvalue, hdigits⟩ := trim_value 20 (shortest c e)
  refine ⟨hdigits fun hzero => ?_, by rw [hvalue, hreads]⟩
  rw [hzero] at hreads
  unfold round decimalValue at hreads
  rw [Nat.cast_zero, zero_mul, if_pos rfl] at hreads
  cases hreads
  exact absurd h.positive (lt_irrefl _)

/-- **The text of a positive number is read as the number**, with whichever sign. -/
theorem readNumber_text (negative : Bool) {c : ℕ} {e : ℤ} {rest : List Char} (h : IsPlace c e)
    (hr : Json.Ends rest) :
    Json.readNumber negative (((shortest c e).trim 20).text.toList ++ rest) =
      some (.real (.finite negative c e), rest) := by
  obtain ⟨hdigits, hround⟩ := written_decimal h
  rw [Json.readNumber_decimalText negative hdigits hr, round_sign negative hround]

/-- The text of zero is read as zero. -/
theorem readNumber_zero (negative : Bool) {rest : List Char} (hr : Json.Ends rest) :
    Json.readNumber negative ("0.0".toList ++ rest) = some (.real (.finite negative 0 0), rest) := by
  have hzero : AllDigits ['0'] := allDigits_zeros 1
  have h := Json.readNumber_fraction negative ⟨hzero, List.cons_ne_nil _ _, .inl rfl⟩ hzero
    (List.cons_ne_nil _ _) hr
  exact h

end Double

end Dissect
