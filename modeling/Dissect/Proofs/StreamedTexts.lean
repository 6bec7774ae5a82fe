/-
# Texts that are read in blocks

A settings file is decoded block by block, and a block may end inside a character.  The bytes of
that character are carried over to the next block, so nothing depends on where the blocks end: bytes
are read in blocks exactly if they can be read at once, and as the same text
(`decodeStream_ok_iff`).

What carries the induction is that the bytes which are carried over begin the unfinished character,
and nothing else (`Carries`).  So the pieces of all bytes are those that the block completes,
followed by those of the carried bytes and the rest (`Carries.pieces_append`).
-/
import Dissect.Proofs.LenientReading

namespace Dissect.Text

/-! ## 1. Pieces that are characters -/

/-- The character that a piece is, if it is one. -/
def Piece.char? : Piece → Option Char
  | .char c _ => some c
  | .malformed .. => none

/-- Every piece is a character, and these are they. -/
def Spell (pieces : List Piece) (cs : List Char) : Prop := pieces.map Piece.char? = cs.map some

/-- Pieces are read strictly exactly if every one of them is a character. -/
theorem charsOf_ok_iff : ∀ {pieces : List Piece} {position : Nat} {cs : List Char},
    charsOf position pieces = .ok cs ↔ Spell pieces cs
  | [], position, cs => by cases cs <;> simp [charsOf, Spell]
  | .malformed .. :: rest, position, cs => by
    cases cs <;> simp [charsOf, Spell, Piece.char?]
  | .char c width :: rest, position, cs => by
    have ih (later : List Char) :
        charsOf (position + width) rest = .ok later ↔ Spell rest later := charsOf_ok_iff
    constructor
    · intro h
      rw [charsOf] at h
      cases hrest : charsOf (position + width) rest with
      | error e =>
        rw [hrest] at h
        cases h
      | ok later =>
        rw [hrest] at h
        cases h
        simpa [Spell, Piece.char?] using (ih later).mp hrest
    · intro h
      rcases cs with _ | ⟨d, later⟩
      · simp [Spell] at h
      · obtain ⟨rfl, hlater⟩ : c = d ∧ Spell rest later := by
          simpa [Spell, Piece.char?] using h
        rw [charsOf, (ih later).mpr hlater]
        rfl

theorem spell_append {first second : List Piece} {cs : List Char} :
    Spell (first ++ second) cs ↔
      ∃ before after, cs = before ++ after ∧ Spell first before ∧ Spell second after := by
  unfold Spell
  rw [List.map_append, eq_comm, List.map_eq_append_iff]
  constructor
  · rintro ⟨before, after, rfl, hbefore, hafter⟩
    exact ⟨before, after, rfl, hbefore.symm, hafter.symm⟩
  · rintro ⟨before, after, rfl, hbefore, hafter⟩
    exact ⟨before, after, rfl, hbefore.symm, hafter.symm⟩

/-- Bytes are a text exactly if all their pieces are characters. -/
theorem decode?_ok_iff {bytes : Bytes} {s : String} :
    decode? bytes = .ok s ↔ Spell (pieces bytes) s.toList := by
  unfold decode?
  cases h : charsOf 0 (pieces bytes) with
  | ok cs =>
    have hspell : Spell (pieces bytes) cs := charsOf_ok_iff.mp h
    constructor
    · intro hs
      obtain rfl : String.ofList cs = s := Except.ok.inj hs
      simpa using hspell
    · intro hs
      have hsame : cs.map some = s.toList.map some := hspell.symm.trans hs
      rw [List.map_inj_right fun _ _ => Option.some.inj] at hsame
      rw [hsame]
      exact congrArg Except.ok String.ofList_toList
  | error e =>
    refine iff_of_false (fun hs => by cases hs) fun hs => ?_
    rw [charsOf_ok_iff.mpr hs] at h
    cases h

/-! ## 2. The bytes that are carried over -/

/-- Of a character of which only the first byte has come, one byte has been seen. -/
theorem seen_of_lead {b : UInt8} {part : Partial} (h : Partial.ofLead? b = some part) :
    part.seen = 1 := by
  unfold Partial.ofLead? at h
  grind

/-- How many bytes of an unfinished character have been seen. -/
def seenOf (pending : Option Partial) : Nat := (pending.map Partial.seen).getD 0

/-- The bytes begin the unfinished character, and nothing else. -/
structure Carries (pending : Option Partial) (kept : Bytes) : Prop where
  pieces : piecesFrom none kept = ([], pending)
  length : kept.length = seenOf pending

namespace Carries

variable {pending : Option Partial} {kept rest : Bytes} {b : UInt8}

/-- Between two characters nothing is carried over. -/
theorem nothing : Carries none [] := ⟨rfl, rfl⟩

/-- The first byte of a piece begins a character, or it is a piece by itself. -/
theorem first (b : UInt8) :
    ∃ dropped kept, [b] = dropped ++ kept ∧ Carries (beginPiece b).2 kept := by
  by_cases hascii : b.toNat < 0x80
  · refine ⟨[b], [], rfl, ?_⟩
    simp [beginPiece, hascii, nothing]
  · cases hlead : Partial.ofLead? b with
    | none =>
      refine ⟨[b], [], rfl, ?_⟩
      simp [beginPiece, hascii, hlead, nothing]
    | some part =>
      have hbegin : beginPiece b = ([], some part) := by simp [beginPiece, hascii, hlead]
      refine ⟨[], [b], rfl, ?_, ?_⟩
      · rw [hbegin, piecesFrom_lead hlead (by omega)]
        rfl
      · rw [hbegin]
        exact (seen_of_lead hlead).symm

/-- One more byte. -/
theorem step (h : Carries pending kept) (b : UInt8) :
    ∃ dropped later, kept ++ [b] = dropped ++ later ∧ Carries (stepPiece pending b).2 later := by
  cases pending with
  | none =>
    obtain rfl : kept = [] := List.eq_nil_of_length_eq_zero h.length
    exact first b
  | some part =>
    by_cases hrange : part.low ≤ b.toNat ∧ b.toNat ≤ part.high
    · by_cases howed : part.owed ≤ 1
      · refine ⟨kept ++ [b], [], by simp, ?_⟩
        simp [stepPiece, hrange, howed, nothing]
      · refine ⟨[], kept ++ [b], rfl, ?_, ?_⟩
        · rw [piecesFrom_append, h.pieces]
          simp [piecesFrom, stepPiece, hrange, howed]
        · have hseen := h.length
          simp only [seenOf, Option.map_some, Option.getD_some] at hseen
          simp [stepPiece, hrange, howed, seenOf, hseen]
    · obtain ⟨dropped, later, hb, hlater⟩ := first b
      refine ⟨kept ++ dropped, later, by rw [hb, List.append_assoc], ?_⟩
      simpa [stepPiece, hrange] using hlater

/-- Any number of bytes more. -/
theorem run : ∀ {kept : Bytes} {pending : Option Partial}, Carries pending kept →
    ∀ bytes : Bytes, ∃ dropped later, kept ++ bytes = dropped ++ later ∧
      Carries (piecesFrom pending bytes).2 later
  | kept, pending, h, [] => ⟨[], kept, by simp, h⟩
  | kept, pending, h, b :: rest => by
    obtain ⟨dropped, middle, hmiddle, hstep⟩ := h.step b
    obtain ⟨more, later, hlater, hrun⟩ := run hstep rest
    refine ⟨dropped ++ more, later, ?_, hrun⟩
    rw [List.append_cons, hmiddle, List.append_assoc, hlater, List.append_assoc]

/-- The last bytes of a block, as many as have been seen of the unfinished character, are those that
are carried over. -/
theorem drop_eq {block dropped : Bytes} (h : Carries pending kept) (hb : block = dropped ++ kept) :
    block.drop (block.length - seenOf pending) = kept := by
  rw [hb, List.length_append, h.length, Nat.add_sub_cancel, List.drop_left]

/-- **The pieces of all bytes** are those that a block completes, followed by the pieces of what is
carried over and the rest. -/
theorem pieces_append {block : Bytes} {done : List Piece} (h : Carries pending kept)
    (hblock : piecesFrom none block = (done, pending)) (rest : Bytes) :
    Text.pieces (block ++ rest) = done ++ Text.pieces (kept ++ rest) := by
  unfold Text.pieces
  rw [piecesFrom_append none block, piecesFrom_append none kept, hblock, h.pieces]
  cases (piecesFrom pending rest).2 <;> simp

end Carries

/-! ## 3. Blocks -/

/-- One block: what it completes is read, and what it leaves unfinished is carried over. -/
theorem decodeBlocks_step {size blocks : Nat} {carried bytes dropped kept : Bytes}
    {done : List Piece} {last : Option Partial} (hbytes : bytes ≠ [])
    (hblock : piecesFrom none (carried ++ bytes.take size) = (done, last))
    (hkept : carried ++ bytes.take size = dropped ++ kept) (hcarries : Carries last kept) :
    decodeBlocks size (blocks + 1) carried bytes =
      match charsOf 0 done with
      | .error e => ([], some (e, carried ++ bytes.take size))
      | .ok cs =>
        (cs ++ (decodeBlocks size blocks kept (bytes.drop size)).1,
          (decodeBlocks size blocks kept (bytes.drop size)).2) := by
  have hempty : bytes.isEmpty = false := by simpa using hbytes
  rw [decodeBlocks, hempty, hblock]
  cases last with
  | none =>
    obtain rfl : kept = [] := List.eq_nil_of_length_eq_zero hcarries.length
    rfl
  | some part =>
    rw [← hcarries.drop_eq hkept]
    rfl

/-- Bytes are read in blocks exactly if all their pieces are characters.  The fuel is enough if it
allows for one block more than the bytes fill. -/
theorem decodeBlocks_ok_iff {size : Nat} : ∀ {blocks : Nat} {carried bytes : Bytes}
    {pending : Option Partial} {cs : List Char}, Carries pending carried →
    bytes.length ≤ size * blocks →
    (decodeBlocks size (blocks + 1) carried bytes = (cs, none) ↔
      Spell (pieces (carried ++ bytes)) cs)
  | blocks, carried, [], pending, cs, _, _ => by
    have hspell : charsOf 0 (pieces (carried ++ [])) = .ok cs ↔
        Spell (pieces (carried ++ [])) cs := charsOf_ok_iff
    rw [← hspell]
    cases hchars : charsOf 0 (pieces (carried ++ [])) <;> simp_all [decodeBlocks]
  | 0, carried, b :: rest, _, _, _, hfuel => by simp at hfuel
  | blocks + 1, carried, b :: rest, pending, cs, hcarried, hfuel => by
    obtain ⟨dropped, kept, hkept, hcarries⟩ := hcarried.run ((b :: rest).take size)
    have hblock : piecesFrom none (carried ++ (b :: rest).take size) =
        piecesFrom pending ((b :: rest).take size) := by
      rw [piecesFrom_append, hcarried.pieces]
      simp
    have hfew : ((b :: rest).drop size).length ≤ size * blocks := by
      rw [List.length_drop, Nat.sub_le_iff_le_add, ← Nat.mul_succ]
      exact hfuel
    have ih (later : List Char) :
        decodeBlocks size (blocks + 1) kept ((b :: rest).drop size) = (later, none) ↔
          Spell (pieces (kept ++ (b :: rest).drop size)) later :=
      decodeBlocks_ok_iff hcarries hfew
    have hall : pieces (carried ++ b :: rest) = (piecesFrom pending ((b :: rest).take size)).1 ++
        pieces (kept ++ (b :: rest).drop size) := by
      rw [← hcarries.pieces_append hblock, List.append_assoc, List.take_append_drop]
    rw [hall, spell_append, decodeBlocks_step (by simp) hblock hkept hcarries]
    cases hchars : charsOf 0 (piecesFrom pending ((b :: rest).take size)).1 with
    | error e =>
      refine iff_of_false (by simp) ?_
      rintro ⟨before, after, -, hbefore, -⟩
      rw [charsOf_ok_iff.mpr hbefore] at hchars
      cases hchars
    | ok now =>
      have hnow := charsOf_ok_iff.mp hchars
      constructor
      · intro h
        obtain ⟨hcs, hstopped⟩ := Prod.mk.inj h
        exact ⟨now, _, hcs.symm, hnow, (ih _).mp (Prod.ext rfl hstopped)⟩
      · rintro ⟨before, after, rfl, hbefore, hafter⟩
        have hsame : now = before := by
          rw [charsOf_ok_iff.mpr hbefore] at hchars
          exact (Except.ok.inj hchars).symm
        simp only [(ih after).mpr hafter, hsame]

/-- **Bytes are read in blocks exactly if they are a text**, and as that text. -/
theorem decodeStream_ok_iff {bytes : Bytes} {cs : List Char} :
    decodeStream bytes = (cs, none) ↔ decode? bytes = .ok (String.ofList cs) := by
  have hfuel : bytes.length ≤ 8192 * (bytes.length / 8192 + 2) := by omega
  rw [decode?_ok_iff, String.toList_ofList]
  exact decodeBlocks_ok_iff Carries.nothing hfuel

/-- The reading stops exactly at bytes that are no text. -/
theorem decodeStream_stops_iff {bytes : Bytes} :
    (∃ cs stop, decodeStream bytes = (cs, some stop)) ↔ ∃ e, decode? bytes = .error e := by
  rcases hstream : decodeStream bytes with ⟨cs, _ | stop⟩
  · rw [decodeStream_ok_iff.mp hstream]
    simp
  · refine iff_of_true ⟨cs, stop, rfl⟩ ?_
    cases hdecode : decode? bytes with
    | error e => exact ⟨e, rfl⟩
    | ok s =>
      rw [← String.ofList_toList (s := s), ← decodeStream_ok_iff, hstream] at hdecode
      cases hdecode

end Dissect.Text
