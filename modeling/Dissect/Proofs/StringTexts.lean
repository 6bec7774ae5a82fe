/-
# Strings read back

A JSON string is written in ASCII: what is not printable is escaped by its code units, two of them
for a character beyond the basic plane.  Reading gives the characters back, with one exception.  A
text may hold single halves of pairs of code units, and where the two halves of a pair stand side by
side, reading takes them for the character that they make up (`Json.paired`).  A text without single
halves comes back unchanged (`pairedText_of_whole`).
-/
import Dissect.Json.Parser
import Dissect.Json.Printer
import Dissect.Proofs.LenientReading

namespace Dissect

open Text (codeOf charOf loneUnit loneUnit? isHighUnit isLowUnit hexDigit hexDigits hexValue?)

namespace Json

/-! ## 1. Code units -/

theorem unit_lt {n : Nat} (h : (isHighUnit n || isLowUnit n) = true) : n < 0x10000 := by
  simp only [isHighUnit, isLowUnit, Bool.or_eq_true, Bool.and_eq_true, decide_eq_true_eq] at h
  omega

theorem high_ne_low {n : Nat} (h : isHighUnit n = true) : isLowUnit n = false := by
  simp only [isHighUnit, Bool.and_eq_true, decide_eq_true_eq] at h
  simp only [isLowUnit, Bool.and_eq_false_iff, decide_eq_false_iff_not]
  omega

/-- Four digits name the unit that they were written for. -/
theorem readUnit_hexDigits {n : Nat} (h : n < 0x10000) (rest : List Char) :
    readUnit (hexDigits 4 n ++ rest) = some (n, rest) := by
  have hdigit : ∀ k, hexValue? (hexDigit (k % 16)) = some (k % 16) :=
    fun k => Text.hexValue?_hexDigit (Nat.mod_lt _ (by decide))
  show readUnit (hexDigit (n / 16 / 16 / 16 % 16) :: hexDigit (n / 16 / 16 % 16) ::
    hexDigit (n / 16 % 16) :: hexDigit (n % 16) :: rest) = _
  simp only [readUnit, hdigit, bind, Option.bind_some]
  congr 2
  omega

/-- The character that the two halves of a pair make up. -/
def joinedUnits (high low : Nat) : Char :=
  Char.ofNat (0x10000 + (high - 0xd800) * 0x400 + (low - 0xdc00))

/-- The halves that a character beyond the basic plane is written as. -/
theorem joinedUnits_split {n : Nat} (hlow : 0x10000 ≤ n) (hhigh : n < 0x110000) :
    isHighUnit (0xd800 + (n - 0x10000) / 0x400) = true ∧
      isLowUnit (0xdc00 + (n - 0x10000) % 0x400) = true ∧
      joinedUnits (0xd800 + (n - 0x10000) / 0x400) (0xdc00 + (n - 0x10000) % 0x400) =
        Char.ofNat n := by
  refine ⟨?_, ?_, ?_⟩
  · simp only [isHighUnit, Bool.and_eq_true, decide_eq_true_eq]
    omega
  · simp only [isLowUnit, Bool.and_eq_true, decide_eq_true_eq]
    omega
  · have hcode : 0x10000 + (0xd800 + (n - 0x10000) / 0x400 - 0xd800) * 0x400 +
        (0xdc00 + (n - 0x10000) % 0x400 - 0xdc00) = n := by omega
    unfold joinedUnits
    rw [hcode]

/-- A unit that is no first half is read as a character of its own. -/
theorem readUnicodeEscape_single {n : Nat} (h : n < 0x10000) (hn : isHighUnit n = false)
    (rest : List Char) : readUnicodeEscape (hexDigits 4 n ++ rest) = some (charOf n, rest) := by
  simp [readUnicodeEscape, readUnit_hexDigits h, hn]

/-- Two halves of a pair are read as the character that they make up. -/
theorem readUnicodeEscape_pair {high low : Nat} (hh : isHighUnit high = true)
    (hl : isLowUnit low = true) (rest : List Char) :
    readUnicodeEscape (hexDigits 4 high ++ (escapeUnit low ++ rest)) =
      some (joinedUnits high low, rest) := by
  have hhigh : high < 0x10000 := unit_lt (by rw [hh]; rfl)
  have hlow : low < 0x10000 := unit_lt (by rw [hl, Bool.or_true])
  simp [readUnicodeEscape, readUnit_hexDigits hhigh, hh, escapeUnit, readUnit_hexDigits hlow, hl,
    joinedUnits]

/-- What follows does not begin with an escaped second half. -/
def NoLow (rest : List Char) : Prop :=
  ∀ tail low rest', rest = '\\' :: 'u' :: tail → readUnit tail = some (low, rest') →
    isLowUnit low = false

/-- A first half before anything but a second half is read as it stands. -/
theorem readUnicodeEscape_lone {n : Nat} (hn : isHighUnit n = true) {rest : List Char}
    (hr : NoLow rest) : readUnicodeEscape (hexDigits 4 n ++ rest) = some (loneUnit n, rest) := by
  have hlt : n < 0x10000 := unit_lt (by rw [hn]; rfl)
  unfold readUnicodeEscape
  simp only [readUnit_hexDigits hlt, bind, Option.bind_some, hn, if_true]
  split
  · rename_i tail
    split
    · rename_i low rest' hunit
      rw [hr tail low rest' rfl hunit]
      rfl
    · rfl
  · rfl

/-! ## 2. Characters -/

/-- The first half of a pair that a character holds. -/
def highUnit? (c : Char) : Option Nat := (loneUnit? c).filter isHighUnit

/-- The second half of a pair that a character holds. -/
def lowUnit? (c : Char) : Option Nat := (loneUnit? c).filter isLowUnit

/-- The character that two characters make up if they hold the two halves of a pair. -/
def joins? (a b : Char) : Option Char :=
  (highUnit? a).bind fun high => (lowUnit? b).map fun low => joinedUnits high low

theorem highUnit?_some {c : Char} {n : Nat} (h : highUnit? c = some n) :
    loneUnit? c = some n ∧ isHighUnit n = true := Option.filter_eq_some_iff.mp h

theorem lowUnit?_some {c : Char} {n : Nat} (h : lowUnit? c = some n) :
    loneUnit? c = some n ∧ isLowUnit n = true := Option.filter_eq_some_iff.mp h

theorem isLowUnit_of_lowUnit? {c : Char} {n : Nat} (h : lowUnit? c = none)
    (hn : loneUnit? c = some n) : isLowUnit n = false := by
  cases hlow : isLowUnit n with
  | false => rfl
  | true =>
    have hsome : lowUnit? c = some n := Option.filter_eq_some_iff.mpr ⟨hn, hlow⟩
    rw [h] at hsome
    cases hsome

theorem joins?_some {a b c : Char} (h : joins? a b = some c) :
    ∃ high low, highUnit? a = some high ∧ lowUnit? b = some low ∧ joinedUnits high low = c := by
  unfold joins? at h
  obtain ⟨high, ha, h⟩ := Option.bind_eq_some_iff.mp h
  obtain ⟨low, hb, h⟩ := Option.map_eq_some_iff.mp h
  exact ⟨high, low, ha, hb, h⟩

theorem joins?_none {a b : Char} {high : Nat} (h : joins? a b = none)
    (ha : highUnit? a = some high) : lowUnit? b = none := by
  cases hb : lowUnit? b with
  | none => rfl
  | some low =>
    unfold joins? at h
    rw [ha, hb] at h
    cases h

/-- The characters with neighbours joined where a function joins them, from the front. -/
def joinNeighbours (join : Char → Char → Option Char) : List Char → List Char
  | a :: b :: rest =>
    match join a b with
    | some c => c :: joinNeighbours join rest
    | none => a :: joinNeighbours join (b :: rest)
  | cs => cs

theorem joinNeighbours_joined {join : Char → Char → Option Char} {a b c : Char}
    (h : join a b = some c) (rest : List Char) :
    joinNeighbours join (a :: b :: rest) = c :: joinNeighbours join rest := by
  simp only [joinNeighbours, h]

theorem joinNeighbours_kept {join : Char → Char → Option Char} {a b : Char}
    (h : join a b = none) (rest : List Char) :
    joinNeighbours join (a :: b :: rest) = a :: joinNeighbours join (b :: rest) := by
  simp only [joinNeighbours, h]

theorem joinNeighbours_single (join : Char → Char → Option Char) (c : Char) :
    joinNeighbours join [c] = [c] := rfl

/-- The characters with every two halves of a pair that stand side by side joined. -/
def paired (cs : List Char) : List Char := joinNeighbours joins? cs

/-- A character that holds a single unit is that of the unit. -/
theorem loneUnit_of_loneUnit? {c : Char} {n : Nat} (h : loneUnit? c = some n) :
    loneUnit n = c ∧ codeOf c = n ∧ (isHighUnit n || isLowUnit n) = true ∧
      c.toNat = Text.loneOffset + n := by
  have hcode : codeOf c = n := by
    unfold codeOf
    rw [h]
    rfl
  unfold loneUnit? at h
  dsimp only at h
  split at h
  · rename_i hunit
    have hn : c.toNat - Text.loneOffset = n := Option.some.inj h
    rw [hn] at hunit
    have hsum : c.toNat = Text.loneOffset + n := by
      simp only [isHighUnit, isLowUnit, Bool.or_eq_true, Bool.and_eq_true,
        decide_eq_true_eq] at hunit
      omega
    refine ⟨?_, hcode, hunit, hsum⟩
    unfold loneUnit
    rw [← hsum, Char.ofNat_toNat]
  · cases h

/-- A character that is no single unit has no unit for its code. -/
theorem codeOf_of_whole {c : Char} (h : loneUnit? c = none) :
    codeOf c = c.toNat ∧ isHighUnit c.toNat = false ∧ isLowUnit c.toNat = false := by
  refine ⟨?_, ?_, ?_⟩
  · unfold codeOf
    rw [h]
    rfl
  · have hvalid := Text.code_cases c
    simp only [isHighUnit, Bool.and_eq_false_iff, decide_eq_false_iff_not]
    omega
  · have hvalid := Text.code_cases c
    simp only [isLowUnit, Bool.and_eq_false_iff, decide_eq_false_iff_not]
    omega

/-- The ways in which a character is written: as it stands, with a short escape, by its code unit, or
by the two halves of a pair. -/
inductive Written (c : Char) : List Char → Prop where
  | plain (quote : c ≠ '"') (backslash : c ≠ '\\') (printable : 0x20 ≤ c.toNat)
      (ascii : c.toNat < 0x80) : Written c [c]
  | short (d : Char) (unit : d ≠ 'u') (ascii : c.toNat < 0x80)
      (reads : ∀ rest, readEscape (d :: rest) = some (c, rest)) : Written c ['\\', d]
  | unit (basic : codeOf c < 0x10000) : Written c (escapeUnit (codeOf c))
  | pair (beyond : 0x10000 ≤ c.toNat) (whole : loneUnit? c = none) :
      Written c (escapeUnit (0xd800 + (c.toNat - 0x10000) / 0x400) ++
        escapeUnit (0xdc00 + (c.toNat - 0x10000) % 0x400))

theorem written_escapeChar (c : Char) : Written c (escapeChar c) := by
  unfold escapeChar
  split
  · rename_i h
    subst h
    exact .short '"' (by decide) (by decide) fun _ => rfl
  split
  · rename_i h
    subst h
    exact .short '\\' (by decide) (by decide) fun _ => rfl
  split
  · rename_i h
    subst h
    exact .short 'n' (by decide) (by decide) fun _ => rfl
  split
  · rename_i h
    subst h
    exact .short 'r' (by decide) (by decide) fun _ => rfl
  split
  · rename_i h
    subst h
    exact .short 't' (by decide) (by decide) fun _ => rfl
  split
  · rename_i h
    subst h
    exact .short 'b' (by decide) (by decide) fun _ => rfl
  split
  · rename_i h
    subst h
    exact .short 'f' (by decide) (by decide) fun _ => rfl
  rename_i hquote hbackslash _ _ _ _ _
  split
  · rename_i h
    simp only [Bool.and_eq_true, decide_eq_true_eq] at h
    exact .plain hquote hbackslash h.1 (Nat.lt_of_le_of_lt h.2 (by decide))
  split
  · rename_i h
    exact .unit h
  · rename_i h
    have hlone : loneUnit? c = none := by
      cases hl : loneUnit? c with
      | none => rfl
      | some n =>
        obtain ⟨-, hcode, hunit, -⟩ := loneUnit_of_loneUnit? hl
        exact absurd (hcode ▸ unit_lt hunit) h
    rw [(codeOf_of_whole hlone).1] at h
    exact .pair (Nat.le_of_not_lt h) hlone

/-- What a character is written as begins with an escaped second half only if it holds one. -/
theorem noLow_escapeChar {c : Char} (h : lowUnit? c = none) (rest : List Char) :
    NoLow (escapeChar c ++ rest) := by
  intro tail low rest' heq hunit
  have hwritten := written_escapeChar c
  generalize escapeChar c = cs at heq hwritten
  cases hwritten with
  | plain hquote hbackslash hprintable =>
    obtain ⟨rfl, -⟩ := List.cons.inj heq
    exact absurd rfl hbackslash
  | short d hd =>
    obtain ⟨-, htail⟩ := List.cons.inj heq
    obtain ⟨rfl, -⟩ := List.cons.inj htail
    exact absurd rfl hd
  | unit hbasic =>
    have htail : hexDigits 4 (codeOf c) ++ rest = tail := (List.cons.inj (List.cons.inj heq).2).2
    rw [← htail, readUnit_hexDigits hbasic] at hunit
    obtain ⟨hlow, -⟩ := Prod.mk.inj (Option.some.inj hunit)
    rw [← hlow]
    cases hl : loneUnit? c with
    | none =>
      obtain ⟨hcode, -, hlow⟩ := codeOf_of_whole hl
      rw [hcode]
      exact hlow
    | some n =>
      rw [(loneUnit_of_loneUnit? hl).2.1]
      exact isLowUnit_of_lowUnit? h hl
  | pair hbeyond hwhole =>
    have hvalid : c.toNat < 0x110000 := by
      have := Text.code_cases c
      omega
    obtain ⟨hhigh, -, -⟩ := joinedUnits_split hbeyond hvalid
    generalize 0xd800 + (c.toNat - 0x10000) / 0x400 = high at heq hhigh
    generalize 0xdc00 + (c.toNat - 0x10000) % 0x400 = second at heq
    have htail : hexDigits 4 high ++ (escapeUnit second ++ rest) = tail := by
      rw [List.append_assoc] at heq
      exact (List.cons.inj (List.cons.inj heq).2).2
    rw [← htail, readUnit_hexDigits (unit_lt (by rw [hhigh]; rfl))] at hunit
    obtain ⟨hlow, -⟩ := Prod.mk.inj (Option.some.inj hunit)
    rw [← hlow]
    exact high_ne_low hhigh

/-! ## 3. Strings -/

/-- What is behind a character is read next. -/
def behind (c : Char) (read : Option (List Char × List Char)) : Option (List Char × List Char) :=
  read.map fun (cs, rest) => (c :: cs, rest)

theorem readStringTail_plain {c : Char} (hquote : c ≠ '"') (hbackslash : c ≠ '\\')
    (hprintable : 0x20 ≤ c.toNat) (fuel : Nat) (rest : List Char) :
    readStringTail (fuel + 1) (c :: rest) = behind c (readStringTail fuel rest) := by
  rw [readStringTail, if_neg hquote, if_neg hbackslash, if_neg (Nat.not_lt.mpr hprintable)]
  cases readStringTail fuel rest <;> rfl

theorem readStringTail_escape {c : Char} {more rest : List Char}
    (h : readEscape more = some (c, rest)) (fuel : Nat) :
    readStringTail (fuel + 1) ('\\' :: more) = behind c (readStringTail fuel rest) := by
  rw [readStringTail, if_neg (by decide), if_pos rfl, h]
  simp only [bind, Option.bind_some]
  cases readStringTail fuel rest <;> rfl

theorem readStringTail_unicode {c : Char} {more rest : List Char}
    (h : readUnicodeEscape more = some (c, rest)) (fuel : Nat) :
    readStringTail (fuel + 1) ('\\' :: 'u' :: more) = behind c (readStringTail fuel rest) :=
  readStringTail_escape (show readEscape ('u' :: more) = some (c, rest) from h) fuel

/-- A character that is read on its own: one that is no first half, or a first half before anything
but a second one. -/
theorem readStringTail_single {c : Char} {rest : List Char}
    (h : ∀ n, highUnit? c = some n → NoLow rest) (fuel : Nat) :
    readStringTail (fuel + 1) (escapeChar c ++ rest) = behind c (readStringTail fuel rest) := by
  have hwritten := written_escapeChar c
  generalize escapeChar c = cs at hwritten ⊢
  cases hwritten with
  | plain hquote hbackslash hprintable =>
    exact readStringTail_plain hquote hbackslash hprintable fuel rest
  | short d hd _ hreads => exact readStringTail_escape (hreads rest) fuel
  | unit hbasic =>
    suffices hread : readUnicodeEscape (hexDigits 4 (codeOf c) ++ rest) = some (c, rest) from
      readStringTail_unicode hread fuel
    cases hl : loneUnit? c with
    | none =>
      obtain ⟨hcode, hhigh, hlow⟩ := codeOf_of_whole hl
      rw [hcode] at hbasic ⊢
      rw [readUnicodeEscape_single hbasic hhigh, charOf, hhigh, hlow]
      exact congrArg (fun d => some (d, rest)) (Char.ofNat_toNat c)
    | some n =>
      obtain ⟨hc, hcode, hunit, -⟩ := loneUnit_of_loneUnit? hl
      rw [hcode] at hbasic ⊢
      cases hhigh : isHighUnit n with
      | true =>
        have hr := h n (Option.filter_eq_some_iff.mpr ⟨hl, hhigh⟩)
        rw [readUnicodeEscape_lone hhigh hr, hc]
      | false => rw [readUnicodeEscape_single hbasic hhigh, charOf, if_pos hunit, hc]
  | pair hbeyond hwhole =>
    have hvalid : c.toNat < 0x110000 := by
      have := Text.code_cases c
      omega
    obtain ⟨hhigh, hlow, hjoined⟩ := joinedUnits_split hbeyond hvalid
    generalize 0xd800 + (c.toNat - 0x10000) / 0x400 = high at hhigh hjoined ⊢
    generalize 0xdc00 + (c.toNat - 0x10000) % 0x400 = low at hlow hjoined ⊢
    rw [List.append_assoc]
    refine readStringTail_unicode ?_ fuel
    refine (readUnicodeEscape_pair hhigh hlow rest).trans ?_
    rw [hjoined, Char.ofNat_toNat]

/-- A single unit is written by its digits. -/
theorem escapeChar_of_unit {c : Char} {n : Nat} (h : loneUnit? c = some n) :
    escapeChar c = escapeUnit n := by
  obtain ⟨-, hcode, -, hlarge⟩ := loneUnit_of_loneUnit? h
  have hoffset : 0x80 ≤ Text.loneOffset := by decide
  have hwritten := written_escapeChar c
  generalize escapeChar c = cs at hwritten ⊢
  cases hwritten with
  | plain _ _ _ hascii => omega
  | short _ _ hascii _ => omega
  | unit _ => rw [hcode]
  | pair _ hwhole =>
    rw [h] at hwhole
    cases hwhole

/-- The two halves of a pair are read together. -/
theorem readStringTail_pair {a b c : Char} (h : joins? a b = some c) (fuel : Nat)
    (rest : List Char) :
    readStringTail (fuel + 1) (escapeChar a ++ (escapeChar b ++ rest)) =
      behind c (readStringTail fuel rest) := by
  obtain ⟨high, low, ha, hb, rfl⟩ := joins?_some h
  obtain ⟨ha, hhigh⟩ := highUnit?_some ha
  obtain ⟨hb, hlow⟩ := lowUnit?_some hb
  rw [escapeChar_of_unit ha, escapeChar_of_unit hb]
  exact readStringTail_unicode (readUnicodeEscape_pair hhigh hlow rest) fuel

/-- The closing quote is no second half. -/
theorem noLow_quote (rest : List Char) : NoLow ('"' :: rest) := by
  intro tail low rest' heq
  obtain ⟨hc, -⟩ := List.cons.inj heq
  exact absurd hc (by decide)

/-- **A written string is read up to its closing quote.** -/
theorem readStringTail_escaped (cs rest : List Char) (fuel : Nat) (h : cs.length < fuel) :
    readStringTail fuel (cs.flatMap escapeChar ++ '"' :: rest) = some (paired cs, rest) := by
  obtain ⟨fuel, rfl⟩ : ∃ more, fuel = more + 1 := ⟨fuel - 1, by omega⟩
  unfold paired
  induction cs using joinNeighbours.induct joins? generalizing fuel with
  | case1 a b tail c hjoins ih =>
    simp only [List.length_cons] at h
    obtain ⟨fuel, rfl⟩ : ∃ more, fuel = more + 1 := ⟨fuel - 1, by omega⟩
    rw [List.flatMap_cons, List.flatMap_cons, List.append_assoc, List.append_assoc,
      readStringTail_pair hjoins, ih fuel (by omega), joinNeighbours_joined hjoins]
    simp only [behind, Option.map_some]
  | case2 a b tail hjoins ih =>
    simp only [List.length_cons] at h
    obtain ⟨fuel, rfl⟩ : ∃ more, fuel = more + 1 := ⟨fuel - 1, by omega⟩
    have hnoLow : ∀ n, highUnit? a = some n →
        NoLow ((b :: tail).flatMap escapeChar ++ '"' :: rest) := by
      intro n ha
      rw [List.flatMap_cons, List.append_assoc]
      exact noLow_escapeChar (joins?_none hjoins ha) _
    rw [List.flatMap_cons, List.append_assoc, readStringTail_single hnoLow,
      ih fuel (by rw [List.length_cons]; omega), joinNeighbours_kept hjoins]
    simp only [behind, Option.map_some]
  | case3 cs hshort =>
    cases cs with
    | nil => rfl
    | cons a tail =>
      cases tail with
      | cons b tail => exact absurd rfl (hshort a b tail)
      | nil =>
        simp only [List.length_cons, List.length_nil] at h
        obtain ⟨fuel, rfl⟩ : ∃ more, fuel = more + 1 := ⟨fuel - 1, by omega⟩
        have hend : readStringTail (fuel + 1) ('"' :: rest) = some ([], rest) := rfl
        rw [List.flatMap_cons, List.flatMap_nil, List.append_nil,
          readStringTail_single fun _ _ => noLow_quote rest, hend]
        simp only [behind, Option.map_some, joinNeighbours_single]

/-- The text with every two halves of a pair that stand side by side joined. -/
def pairedText (s : String) : String := String.ofList (paired s.toList)

/-- Every character takes at least one character to write. -/
theorem length_le_escaped (cs : List Char) : cs.length ≤ (cs.flatMap escapeChar).length := by
  induction cs with
  | nil => exact Nat.le_refl _
  | cons c cs ih =>
    have hpos : 0 < (escapeChar c).length := by
      have hwritten := written_escapeChar c
      generalize escapeChar c = written at hwritten ⊢
      cases hwritten <;> simp [escapeUnit]
    rw [List.flatMap_cons, List.length_append, List.length_cons]
    omega

/-- **A string reads back** with the halves of pairs joined, whatever follows it. -/
theorem readString_stringText (s : String) (rest : List Char) :
    ∃ more, (stringText s).toList ++ rest = '"' :: more ∧
      readString more = some (pairedText s, rest) := by
  refine ⟨s.toList.flatMap escapeChar ++ '"' :: rest, ?_, ?_⟩
  · unfold stringText
    rw [String.toList_ofList]
    simp
  · unfold readString
    rw [readStringTail_escaped]
    · rfl
    · have := length_le_escaped s.toList
      rw [List.length_append, List.length_cons]
      omega

/-- A text without single first halves reads back unchanged. -/
theorem pairedText_of_no_high {s : String} (h : ∀ c ∈ s.toList, highUnit? c = none) :
    pairedText s = s := by
  have hpaired : ∀ cs : List Char, (∀ c ∈ cs, highUnit? c = none) → paired cs = cs := by
    intro cs
    unfold paired
    induction cs using joinNeighbours.induct joins? with
    | case1 a b tail c hjoins ih =>
      intro hcs
      obtain ⟨high, -, ha, -⟩ := joins?_some hjoins
      rw [hcs a List.mem_cons_self] at ha
      cases ha
    | case2 a b tail hjoins ih =>
      intro hcs
      rw [joinNeighbours_kept hjoins, ih fun c hc => hcs c (List.mem_cons_of_mem _ hc)]
    | case3 cs hshort =>
      intro _
      cases cs with
      | nil => rfl
      | cons a tail =>
        cases tail with
        | nil => rfl
        | cons b tail => exact absurd rfl (hshort a b tail)
  unfold pairedText
  rw [hpaired _ h, String.ofList_toList]

/-- A text without single halves reads back unchanged. -/
theorem pairedText_of_whole {s : String} (h : ∀ c ∈ s.toList, loneUnit? c = none) :
    pairedText s = s :=
  pairedText_of_no_high fun c hc => by
    unfold highUnit?
    rw [h c hc]
    rfl

end Json

end Dissect
