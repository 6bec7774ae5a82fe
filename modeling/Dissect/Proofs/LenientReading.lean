/-
# What is written can be read leniently

The bytes of a text are read back as that text: the pieces of the bytes are the characters of the
text, one for each, and none is malformed (`Text.decodeLossy_encode`).  The argument follows one
character.  Its first byte says how many are owed and in which range the next one lies, and the two
leads with an overlong form and the one with surrogates narrow that range; a character keeps within
it because its code is no smaller than its width and is no surrogate.

The line ends of a text are a matter apart: they are unified after the reading, which leaves a text
without CR alone.
-/
import Dissect.Tool.Command

namespace Dissect.Text

/-! ## 1. Pieces, one byte after another -/

variable {part : Partial} {b : UInt8} {rest : Bytes}

/-- The pieces of two stretches of bytes are those of the first and then those of the second. -/
theorem piecesFrom_append (pending : Option Partial) : ∀ first second : Bytes,
    piecesFrom pending (first ++ second) =
      ((piecesFrom pending first).1 ++ (piecesFrom (piecesFrom pending first).2 second).1,
        (piecesFrom (piecesFrom pending first).2 second).2)
  | [], second => by simp [piecesFrom]
  | b :: rest, second => by
    have ih := piecesFrom_append (stepPiece pending b).2 rest second
    simp only [List.cons_append, piecesFrom, ih, List.append_assoc]

/-- A lead byte begins a character. -/
theorem piecesFrom_lead (hlead : Partial.ofLead? b = some part) (hhigh : 0x80 ≤ b.toNat) :
    piecesFrom none (b :: rest) = piecesFrom (some part) rest := by
  have hstep : stepPiece none b = ([], some part) := by
    show beginPiece b = _
    unfold beginPiece
    rw [if_neg (by omega), hlead]
  simp only [piecesFrom, hstep, List.nil_append]

/-- A byte in the range that a character still needs goes on with it. -/
theorem piecesFrom_more {first : UInt8} {seen owed low high code : Nat} (hlow : low ≤ b.toNat)
    (hhigh : b.toNat ≤ high) :
    piecesFrom (some ⟨first, seen, owed + 2, low, high, code⟩) (b :: rest) =
      piecesFrom (some ⟨first, seen + 1, owed + 1, 0x80, 0xbf, code * 0x40 + b.toNat % 0x40⟩)
        rest := by
  simp [piecesFrom, stepPiece, hlow, hhigh]

/-- The last byte that a character needs completes it. -/
theorem piecesFrom_last {first : UInt8} {seen low high code : Nat} (hlow : low ≤ b.toNat)
    (hhigh : b.toNat ≤ high) :
    piecesFrom (some ⟨first, seen, 1, low, high, code⟩) [b] =
      ([.char (Char.ofNat (code * 0x40 + b.toNat % 0x40)) (seen + 1)], none) := by
  simp [piecesFrom, stepPiece, hlow, hhigh]

/-! ## 2. One character -/

theorem toNat_byte {n : Nat} (h : n < 0x100) : (UInt8.ofNat n).toNat = n := by
  rw [UInt8.toNat_ofNat', Nat.mod_eq_of_lt h]

/-- The leads of two bytes. -/
theorem lead_two {k : Nat} (hlow : 2 ≤ k) (hhigh : k < 0x20) :
    Partial.ofLead? (UInt8.ofNat (0xc0 + k)) =
      some ⟨UInt8.ofNat (0xc0 + k), 1, 1, 0x80, 0xbf, k⟩ := by
  have h : ∀ k : Fin 0x20, 2 ≤ k.val → Partial.ofLead? (UInt8.ofNat (0xc0 + k)) =
      some ⟨UInt8.ofNat (0xc0 + k), 1, 1, 0x80, 0xbf, k⟩ := by decide
  exact h ⟨k, hhigh⟩ hlow

/-- The leads of three bytes.  The first of them would be overlong with a small second byte, and
the fourteenth with a great one would begin a surrogate. -/
theorem lead_three {k : Nat} (h : k < 0x10) :
    Partial.ofLead? (UInt8.ofNat (0xe0 + k)) =
      some ⟨UInt8.ofNat (0xe0 + k), 1, 2, if k = 0 then 0xa0 else 0x80,
        if k = 0xd then 0x9f else 0xbf, k⟩ := by
  have hall : ∀ k : Fin 0x10, Partial.ofLead? (UInt8.ofNat (0xe0 + k)) =
      some ⟨UInt8.ofNat (0xe0 + k), 1, 2, if k.val = 0 then 0xa0 else 0x80,
        if k.val = 0xd then 0x9f else 0xbf, k⟩ := by decide
  exact hall ⟨k, h⟩

/-- The leads of four bytes.  The last of them goes on up to the greatest code only. -/
theorem lead_four {k : Nat} (h : k < 5) :
    Partial.ofLead? (UInt8.ofNat (0xf0 + k)) =
      some ⟨UInt8.ofNat (0xf0 + k), 1, 3, if k = 0 then 0x90 else 0x80,
        if k = 4 then 0x8f else 0xbf, k⟩ := by
  have hall : ∀ k : Fin 5, Partial.ofLead? (UInt8.ofNat (0xf0 + k)) =
      some ⟨UInt8.ofNat (0xf0 + k), 1, 3, if k.val = 0 then 0x90 else 0x80,
        if k.val = 4 then 0x8f else 0xbf, k⟩ := by decide
  exact hall ⟨k, h⟩

/-- A character has a code that is no surrogate. -/
theorem code_cases (c : Char) : c.toNat < 0xd800 ∨ 0xdfff < c.toNat ∧ c.toNat < 0x110000 := c.valid

/-- A byte in the middle or at the end of a character. -/
def tailByte (m : Nat) : UInt8 := UInt8.ofNat (0x80 + m % 0x40)

theorem toNat_tailByte (m : Nat) : (tailByte m).toNat = 0x80 + m % 0x40 := toNat_byte (by omega)

/-- A character of two bytes, which are those of its code. -/
theorem piecesFrom_two {k n : Nat} (hlow : 2 ≤ k) (hhigh : k < 0x20)
    (hn : n = k * 0x40 + n % 0x40) :
    piecesFrom none [UInt8.ofNat (0xc0 + k), tailByte n] = ([.char (Char.ofNat n) 2], none) := by
  have hlead : (UInt8.ofNat (0xc0 + k)).toNat = 0xc0 + k := toNat_byte (by omega)
  have hlast := toNat_tailByte n
  have hcode : k * 0x40 + (tailByte n).toNat % 0x40 = n := by omega
  rw [piecesFrom_lead (lead_two hlow hhigh) (by omega), piecesFrom_last (by omega) (by omega),
    hcode]

/-- A character of three bytes: its code is not one for fewer bytes, and no surrogate. -/
theorem piecesFrom_three {k n : Nat} (hk : k < 0x10)
    (hn : n = k * 0x1000 + n / 0x40 % 0x40 * 0x40 + n % 0x40)
    (hwide : k = 0 → 0x20 ≤ n / 0x40 % 0x40) (hplain : k = 0xd → n / 0x40 % 0x40 < 0x20) :
    piecesFrom none [UInt8.ofNat (0xe0 + k), tailByte (n / 0x40), tailByte n] =
      ([.char (Char.ofNat n) 3], none) := by
  have hlead : (UInt8.ofNat (0xe0 + k)).toNat = 0xe0 + k := toNat_byte (by omega)
  have hmid := toNat_tailByte (n / 0x40)
  have hlast := toNat_tailByte n
  have hcode : (k * 0x40 + (tailByte (n / 0x40)).toNat % 0x40) * 0x40 +
      (tailByte n).toNat % 0x40 = n := by omega
  rw [piecesFrom_lead (lead_three hk) (by omega),
    piecesFrom_more (by split <;> omega) (by split <;> omega),
    piecesFrom_last (by omega) (by omega), hcode]

/-- A character of four bytes: its code is not one for fewer bytes, and within the bound. -/
theorem piecesFrom_four {k n : Nat} (hk : k < 5)
    (hn : n = k * 0x40000 + n / 0x1000 % 0x40 * 0x1000 + n / 0x40 % 0x40 * 0x40 + n % 0x40)
    (hwide : k = 0 → 0x10 ≤ n / 0x1000 % 0x40) (hbound : k = 4 → n / 0x1000 % 0x40 < 0x10) :
    piecesFrom none [UInt8.ofNat (0xf0 + k), tailByte (n / 0x1000), tailByte (n / 0x40),
      tailByte n] = ([.char (Char.ofNat n) 4], none) := by
  have hlead : (UInt8.ofNat (0xf0 + k)).toNat = 0xf0 + k := toNat_byte (by omega)
  have hfirst := toNat_tailByte (n / 0x1000)
  have hmid := toNat_tailByte (n / 0x40)
  have hlast := toNat_tailByte n
  have hcode : ((k * 0x40 + (tailByte (n / 0x1000)).toNat % 0x40) * 0x40 +
      (tailByte (n / 0x40)).toNat % 0x40) * 0x40 + (tailByte n).toNat % 0x40 = n := by omega
  rw [piecesFrom_lead (lead_four hk) (by omega),
    piecesFrom_more (by split <;> omega) (by split <;> omega),
    piecesFrom_more (by omega) (by omega), piecesFrom_last (by omega) (by omega), hcode]

/-- **The bytes of a character are one piece**, that character. -/
theorem piecesFrom_encodeChar (c : Char) :
    piecesFrom none (encodeChar c) = ([.char c (encodeChar c).length], none) := by
  have hcode := code_cases c
  have hback : Char.ofNat c.toNat = c := Char.ofNat_toNat c
  unfold encodeChar
  generalize c.toNat = n at hcode hback
  subst hback
  simp only
  split
  · rename_i h
    have hb : (UInt8.ofNat n).toNat = n := toNat_byte (by omega)
    simp [piecesFrom, stepPiece, beginPiece, hb, h]
  · have htail : UInt8.ofNat (0x80 + n / Nat.pow 2 0 % 0x40) = tailByte n := by
      unfold tailByte
      rw [show Nat.pow 2 0 = 1 from rfl, Nat.div_one]
    rw [htail]
    split
    · exact piecesFrom_two (by omega) (by omega) (by omega)
    · split
      · exact piecesFrom_three (by omega) (by omega) (by omega) (by omega)
      · exact piecesFrom_four (by omega) (by omega) (by omega) (by omega)

/-! ## 3. The whole text -/

theorem piecesFrom_encode : ∀ cs : List Char, piecesFrom none (cs.flatMap encodeChar) =
    (cs.map fun c => .char c (encodeChar c).length, none)
  | [] => rfl
  | c :: rest => by
    rw [List.flatMap_cons, piecesFrom_append, piecesFrom_encodeChar, piecesFrom_encode rest]
    rfl

theorem pieces_encode (s : String) :
    pieces (encode s) = s.toList.map fun c => .char c (encodeChar c).length := by
  unfold pieces encode
  rw [piecesFrom_encode]

/-- **What is written is read back leniently as it was.** -/
theorem decodeLossy_encode (s : String) : decodeLossy (encode s) = s := by
  unfold decodeLossy
  rw [pieces_encode, List.map_map]
  simp [Function.comp_def]

/-- What is written is read back strictly as well. -/
theorem decode?_encode (s : String) : decode? (encode s) = .ok s := by
  have hchars : ∀ (cs : List Char) (position : Nat),
      charsOf position (cs.map fun c => .char c (encodeChar c).length) = .ok cs := by
    intro cs
    induction cs with
    | nil => exact fun _ => rfl
    | cons c rest ih =>
      intro position
      rw [List.map_cons, charsOf, ih]
      rfl
  unfold decode?
  rw [pieces_encode, hchars]
  exact congrArg Except.ok String.ofList_toList

/-- A text without CR has the line ends already. -/
theorem unifyNewlines_of_not_mem {cs : List Char} (h : '\r' ∉ cs) : unifyNewlines cs = cs := by
  fun_induction unifyNewlines cs with
  | case1 => rfl
  | case2 rest ih => simp at h
  | case3 c rest _ ih =>
    simp only [List.mem_cons, not_or] at h
    rw [if_neg (fun hc => h.1 hc.symm), ih h.2]

end Dissect.Text

namespace Dissect.Command

/-- What a child wrote as text without CR is passed on as that text. -/
theorem streamText_encode {s : String} (h : '\r' ∉ s.toList) :
    streamText (Text.encode s) = s := by
  unfold streamText
  rw [Text.decodeLossy_encode, Text.unifyNewlines_of_not_mem h, String.ofList_toList]

end Dissect.Command
