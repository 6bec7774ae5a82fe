/-
# Names that a pattern describes

A pattern that begins with a star describes the names that end in a way that the rest of it
describes (`Files.Glob.matchPieces_any`).  Where the rest is a text without the characters that mean
something in a pattern, these are the names that end in the text (`Files.Glob.fits_star`).
-/
import Dissect.Files.Glob

namespace Dissect.Files.Glob

/-- The test is passed by some end of the characters. -/
theorem anyEnd_iff {test : List Char → Bool} {cs : List Char} :
    anyEnd test cs = true ↔ ∃ back, back <:+ cs ∧ test back = true := by
  induction cs with
  | nil =>
    constructor
    · exact fun h => ⟨[], List.suffix_refl _, h⟩
    · rintro ⟨back, hback, h⟩
      rw [List.suffix_nil.mp hback] at h
      exact h
  | cons c rest ih =>
    rw [anyEnd, Bool.or_eq_true, ih]
    constructor
    · rintro (h | ⟨back, hback, h⟩)
      · exact ⟨c :: rest, List.suffix_refl _, h⟩
      · exact ⟨back, hback.trans (List.suffix_cons c rest), h⟩
    · rintro ⟨back, hback, h⟩
      rcases List.suffix_cons_iff.mp hback with rfl | hback
      · exact .inl h
      · exact .inr ⟨back, hback, h⟩

/-- **A star stands for any characters.** -/
theorem matchPieces_any {pieces : List GlobPiece} {cs : List Char} :
    matchPieces (.any :: pieces) cs = true ↔
      ∃ back, back <:+ cs ∧ matchPieces pieces back = true := by
  rw [matchPieces]
  exact anyEnd_iff

/-- A piece for one character describes a character and then what the other pieces describe. -/
theorem matchPieces_exactly {c : Char} {pieces : List GlobPiece} {cs : List Char} :
    matchPieces (.exactly c :: pieces) cs = true ↔
      ∃ rest, cs = c :: rest ∧ matchPieces pieces rest = true := by
  cases cs with
  | nil => simp [matchPieces]
  | cons d rest =>
    simp only [matchPieces, GlobPiece.admits, Bool.and_eq_true, decide_eq_true_eq, List.cons.injEq]
    constructor
    · rintro ⟨rfl, h⟩
      exact ⟨rest, ⟨rfl, rfl⟩, h⟩
    · rintro ⟨_, ⟨rfl, rfl⟩, h⟩
      exact ⟨rfl, h⟩

/-- The character means itself in a pattern. -/
def IsOrdinary (c : Char) : Prop := c ≠ '*' ∧ c ≠ '?' ∧ c ≠ '['

theorem piecesOf_star (fuel : Nat) (cs : List Char) :
    piecesOf (fuel + 1) ('*' :: cs) = .any :: piecesOf fuel cs := by
  rw [piecesOf, if_pos rfl]

theorem piecesOf_ordinary {c : Char} (h : IsOrdinary c) (fuel : Nat) (cs : List Char) :
    piecesOf (fuel + 1) (c :: cs) = .exactly c :: piecesOf fuel cs := by
  rw [piecesOf, if_neg h.1, if_neg h.2.1, if_neg h.2.2]

/-- A text of ordinary characters describes itself only. -/
theorem matchPieces_ordinary {text : List Char} (h : ∀ c ∈ text, IsOrdinary c) {fuel : Nat}
    (hfuel : text.length ≤ fuel) {cs : List Char} :
    matchPieces (piecesOf fuel text) cs = true ↔ cs = text := by
  induction text generalizing fuel cs with
  | nil =>
    have hpieces : piecesOf fuel [] = [] := by cases fuel <;> rfl
    rw [hpieces, matchPieces, List.isEmpty_iff]
  | cons c rest ih =>
    rw [List.length_cons] at hfuel
    obtain ⟨fuel, rfl⟩ : ∃ more, fuel = more + 1 := ⟨fuel - 1, by omega⟩
    rw [piecesOf_ordinary (h c List.mem_cons_self), matchPieces_exactly]
    constructor
    · rintro ⟨tail, rfl, htail⟩
      rw [(ih (fun d hd => h d (List.mem_cons_of_mem _ hd)) (by omega)).mp htail]
    · rintro rfl
      exact ⟨rest, rfl,
        (ih (fun d hd => h d (List.mem_cons_of_mem _ hd)) (by omega)).mpr rfl⟩

/-- **A star and an ordinary text describe the names that end in the text.** -/
theorem fits_star {pattern name : String} {text : List Char} (hp : pattern.toList = '*' :: text)
    (h : ∀ c ∈ text, IsOrdinary c) : fits pattern name = true ↔ text <:+ name.toList := by
  have hlength : pattern.length = text.length + 1 := by
    rw [← String.length_toList, hp, List.length_cons]
  unfold fits
  rw [hp, hlength, piecesOf_star, matchPieces_any]
  constructor
  · rintro ⟨back, hback, hmatch⟩
    rw [← (matchPieces_ordinary h (Nat.le_succ _)).mp hmatch]
    exact hback
  · exact fun hsuffix => ⟨text, hsuffix, (matchPieces_ordinary h (Nat.le_succ _)).mpr rfl⟩

/-- A name that a star and an ordinary character, and whatever follows, describe has the
character. -/
theorem mem_of_fits {pattern name : String} {c : Char} {tail : List Char} (hc : IsOrdinary c)
    (hp : pattern.toList = '*' :: c :: tail) (h : fits pattern name = true) : c ∈ name.toList := by
  have hlength : pattern.length = tail.length + 2 := by
    rw [← String.length_toList, hp, List.length_cons, List.length_cons]
  unfold fits at h
  rw [hp, hlength, piecesOf_star, piecesOf_ordinary hc, matchPieces_any] at h
  obtain ⟨back, hback, hmatch⟩ := h
  obtain ⟨rest, rfl, -⟩ := matchPieces_exactly.mp hmatch
  exact hback.subset List.mem_cons_self

end Dissect.Files.Glob
