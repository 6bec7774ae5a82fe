/-
# Documents read back

What the printer writes, the reader takes again, with whatever indent it was written: a document is
read as `reread`, which is the document itself but for its strings, whose single halves of pairs come
back joined, and for its objects, whose keys may thereby have become equal.

The reader sets limits that the printer does not: integers have at most 4300 digits, and arrays and
objects are nested to a depth.  `Readable` documents are those within the limits.  Everything that
the reader accepts is one of them (`readable_of_parse`), so a document that has been read can be
written and read any number of times.
-/
import Dissect.Proofs.NumberTexts
import Dissect.Proofs.StringTexts

namespace Dissect.Json

open Text (isDigit)

/-! ## 1. Documents within the limits -/

/-- The document may stand where arrays and objects can still be nested to the given depth. -/
inductive Readable : Nat → Json → Prop where
  | null {depth : Nat} : Readable depth .null
  | bool {depth : Nat} (b : Bool) : Readable depth (.bool b)
  | int {depth : Nat} {n : Int} (short : n.natAbs < 10 ^ maxDigits) : Readable depth (.int n)
  | real {depth : Nat} {x : Double} (canonical : x.Canonical) : Readable depth (.real x)
  | str {depth : Nat} (s : String) : Readable depth (.str s)
  | arr {depth : Nat} {items : List Json} (all : ∀ item ∈ items, Readable depth item) :
      Readable (depth + 1) (.arr items)
  | obj {depth : Nat} {members : List (String × Json)}
      (all : ∀ member ∈ members, Readable depth member.2) : Readable (depth + 1) (.obj members)

mutual

/-- The document as it is read after it has been written. -/
def reread : Json → Json
  | .null => .null
  | .bool b => .bool b
  | .int n => .int n
  | .real x => .real x
  | .str s => .str (pairedText s)
  | .arr items => .arr (rereadItems items)
  | .obj members => .obj (rereadMembers [] members)

/-- The items of an array as they are read. -/
def rereadItems : List Json → List Json
  | [] => []
  | item :: rest => reread item :: rereadItems rest

/-- The members of an object as they are read after those already read. -/
def rereadMembers (done : List (String × Json)) : List (String × Json) → List (String × Json)
  | [] => done
  | (key, value) :: rest => rereadMembers (setMember (pairedText key) (reread value) done) rest

end

/-- A member of an object after a key is set is one of those before or has the new value. -/
theorem mem_setMember {key : String} {value : Json} {members : List (String × Json)}
    {member : String × Json} (h : member ∈ setMember key value members) :
    member ∈ members ∨ member.2 = value := by
  unfold setMember at h
  induction members with
  | nil =>
    rw [Assoc.set, List.mem_singleton] at h
    rw [h]
    exact .inr rfl
  | cons first rest ih =>
    rw [Assoc.set] at h
    split at h
    · rcases List.mem_cons.mp h with rfl | h
      · exact .inr rfl
      · exact .inl (List.mem_cons_of_mem _ h)
    · rcases List.mem_cons.mp h with rfl | h
      · exact .inl List.mem_cons_self
      · exact (ih h).imp_left (List.mem_cons_of_mem _)

theorem rereadItems_eq (items : List Json) : rereadItems items = items.map reread := by
  induction items with
  | nil => rfl
  | cons item rest ih => rw [rereadItems, ih, List.map_cons]

/-! ## 2. Layout -/

section Layout

variable (indent : Option Int) (depth : Nat)

theorem joined_cons (piece : Piece) (pieces : List Piece) :
    joined (piece :: pieces) = piece.written ++ joined pieces := String.join_cons

theorem joined_append (pieces more : List Piece) :
    joined (pieces ++ more) = joined pieces ++ joined more := by
  unfold joined
  rw [List.map_append, String.join_append]

theorem joined_single (piece : Piece) : joined [piece] = piece.written := by
  rw [joined_cons]
  exact String.append_empty

/-- A break consists of spaces. -/
theorem skipSpace_lineBreak (rest : List Char) :
    skipSpace ((lineBreak indent depth).toList ++ rest) = skipSpace rest := by
  have hspaces : ∀ c ∈ (lineBreak indent depth).toList, isSpace c = true := by
    cases indent with
    | none => simp [lineBreak]
    | some width =>
      intro c hc
      rw [lineBreak, String.toList_ofList] at hc
      rcases List.mem_cons.mp hc with rfl | hc
      · rfl
      · rw [List.eq_of_mem_replicate hc]
        rfl
  exact List.dropWhile_append_of_pos hspaces

/-- What separates two items is a comma and spaces. -/
theorem separator_toList :
    ∃ spaces, (separator indent depth).toList = ',' :: spaces ∧
      ∀ rest, skipSpace (spaces ++ rest) = skipSpace rest := by
  cases indent with
  | none => exact ⟨[' '], by simp [separator], fun _ => rfl⟩
  | some width =>
    refine ⟨(lineBreak (some width) depth).toList, ?_, skipSpace_lineBreak (some width) depth⟩
    rw [separator, String.toList_append]
    rfl

/-- The text after the first of some items up to the closing character. -/
def tailText (closing : Char) : List (List Piece) → List Char
  | [] => (lineBreak indent depth).toList ++ [closing]
  | item :: rest =>
    (separator indent (depth + 1)).toList ++ ((joined item).toList ++ tailText closing rest)

theorem joined_enclose (opening closing : String) (c : Char) (hc : closing.toList = [c])
    (first : List Piece) (rest : List (List Piece)) :
    (joined (enclose opening closing indent depth (first :: rest))).toList =
      opening.toList ++ ((lineBreak indent (depth + 1)).toList ++
        ((joined first).toList ++ tailText indent depth c rest)) := by
  have htail : ∀ (first : List Piece) (rest : List (List Piece)),
      (joined (((first :: rest).intersperse [.text (separator indent (depth + 1))]).flatten ++
        [.text (lineBreak indent depth ++ closing)])).toList =
        (joined first).toList ++ tailText indent depth c rest := by
    intro first rest
    induction rest generalizing first with
    | nil =>
      rw [List.intersperse_singleton, List.flatten_singleton, joined_append, joined_single,
        String.toList_append, Piece.written, String.toList_append, hc]
      rfl
    | cons second rest ih =>
      rw [List.intersperse_cons_cons, List.flatten_cons, List.flatten_cons, List.append_assoc,
        List.append_assoc, joined_append, String.toList_append, joined_append,
        String.toList_append, joined_single, ih second]
      rfl
  rw [enclose, List.cons_append, joined_cons, String.toList_append, Piece.written, htail,
    String.toList_append, List.append_assoc]
  intro h
  cases h

end Layout

/-! ## 3. Numbers and words -/

section Tokens

variable {rest : List Char}

/-- A number after its sign begins with a digit. -/
theorem readNumber_head {negative : Bool} {cs : List Char} {result : Json × List Char}
    (h : readNumber negative cs = some result) : ∃ c tail, cs = c :: tail ∧ isDigit c = true := by
  unfold readNumber at h
  obtain ⟨⟨whole, more⟩, hwhole, -⟩ := Option.bind_eq_some_iff.mp h
  unfold readWhole at hwhole
  split at hwhole
  · exact ⟨_, _, rfl, by decide⟩
  · cases cs with
    | nil => cases hwhole
    | cons c tail =>
      cases hc : isDigit c with
      | true => exact ⟨c, tail, rfl, hc⟩
      | false =>
        rw [List.takeWhile_cons, hc] at hwhole
        cases hwhole

/-- None of the words begins with a digit, nor with a minus sign and a digit. -/
theorem readWord_digit {c : Char} (h : isDigit c = true) (tail : List Char) :
    readWord (c :: tail) = none ∧ readWord ('-' :: c :: tail) = none := by
  have hne : c ≠ 'n' ∧ c ≠ 't' ∧ c ≠ 'f' ∧ c ≠ 'N' ∧ c ≠ 'I' ∧ c ≠ '-' := by
    refine ⟨?_, ?_, ?_, ?_, ?_, ?_⟩ <;> (rintro rfl; revert h; decide)
  obtain ⟨hn, ht, hf, hN, hI, hminus⟩ := hne
  constructor <;> simp [readWord, words, hn.symm, ht.symm, hf.symm, hN.symm, hI.symm, hminus.symm]

/-- What begins like neither a string nor an array nor an object is a word or a number. -/
theorem readValue_other {c : Char} (hquote : c ≠ '"') (hbracket : c ≠ '[') (hbrace : c ≠ '\x7b')
    (depth fuel : Nat) (tail : List Char) :
    readValue depth (fuel + 1) (c :: tail) =
      match readWord (c :: tail) with
      | some result => .ok result
      | none =>
        match c :: tail with
        | '-' :: rest => token (readNumber true) rest
        | cs => token (readNumber false) cs := by
  unfold readValue
  split
  · rename_i heq
    exact absurd (List.cons.inj heq).1 hquote
  · rename_i heq
    exact absurd (List.cons.inj heq).1 hbracket
  · rename_i heq
    exact absurd (List.cons.inj heq).1 hbracket
  · rename_i heq
    exact absurd (List.cons.inj heq).1 hbrace
  · rename_i heq
    exact absurd (List.cons.inj heq).1 hbrace
  · rfl

/-- A word is read as the value that it stands for. -/
theorem readValue_word {word : String} {value : Json} (h : (word, value) ∈ words)
    (depth fuel : Nat) : readValue depth (fuel + 1) (word.toList ++ rest) = .ok (value, rest) := by
  simp only [words, List.mem_cons, Prod.mk.injEq, List.not_mem_nil, or_false] at h
  rcases h with ⟨rfl, rfl⟩ | ⟨rfl, rfl⟩ | ⟨rfl, rfl⟩ | ⟨rfl, rfl⟩ | ⟨rfl, rfl⟩ | ⟨rfl, rfl⟩
  · rfl
  · rfl
  · rfl
  · rfl
  · rfl
  · rfl

/-- The sign before a number. -/
def signText (negative : Bool) : List Char := if negative then ['-'] else []

theorem readValue_number {negative : Bool} {cs : List Char} {value : Json}
    (h : readNumber negative cs = some (value, rest)) (depth fuel : Nat) :
    readValue depth (fuel + 1) (signText negative ++ cs) = .ok (value, rest) := by
  obtain ⟨c, tail, rfl, hc⟩ := readNumber_head h
  obtain ⟨hplain, hminus⟩ := readWord_digit hc tail
  cases negative with
  | true =>
    show readValue depth (fuel + 1) ('-' :: c :: tail) = _
    rw [readValue_other (by decide) (by decide) (by decide), hminus]
    simp only [token, h]
  | false =>
    have hne : c ≠ '"' ∧ c ≠ '[' ∧ c ≠ '\x7b' ∧ c ≠ '-' := by
      refine ⟨?_, ?_, ?_, ?_⟩ <;> (rintro rfl; revert hc; decide)
    show readValue depth (fuel + 1) (c :: tail) = _
    rw [readValue_other hne.1 hne.2.1 hne.2.2.1, hplain]
    dsimp only
    split
    · rename_i heq
      exact absurd (List.cons.inj heq).1 hne.2.2.2
    · simp only [token, h]

/-- The text of an integer is a sign and a number. -/
theorem int_text {n : Int} (hn : n.natAbs < 10 ^ maxDigits) (hr : Ends rest) :
    ∃ negative cs, (toString n).toList ++ rest = signText negative ++ cs ∧
      readNumber negative cs = some (.int n, rest) := by
  cases n with
  | ofNat n =>
    refine ⟨false, (toString n).toList ++ rest, rfl, ?_⟩
    have hn : n < 10 ^ maxDigits := hn
    rw [readNumber_toString false hn hr]
    rfl
  | negSucc n =>
    refine ⟨true, (toString (n + 1)).toList ++ rest, ?_, ?_⟩
    · have htext : toString (Int.negSucc n) = "-" ++ toString (n + 1) := rfl
      rw [htext, String.toList_append]
      rfl
    · have hn : n + 1 < 10 ^ maxDigits := hn
      rw [readNumber_toString true hn hr]
      rfl

/-- The text of a number that is finite is a sign and a number. -/
theorem real_text {negative : Bool} {c : Nat} {e : Int}
    (h : (Double.finite negative c e).Canonical) (hr : Ends rest) :
    ∃ cs, (realText (.finite negative c e)).toList ++ rest = signText negative ++ cs ∧
      readNumber negative cs = some (.real (.finite negative c e), rest) := by
  have hsign : (if negative = true then "-" else "").toList = signText negative := by
    cases negative <;> simp [signText]
  rcases h with ⟨rfl, rfl⟩ | hplace
  · refine ⟨"0.0".toList ++ rest, ?_, Double.readNumber_zero negative hr⟩
    unfold realText Double.text
    dsimp only
    rw [if_pos rfl, String.toList_append, hsign, List.append_assoc]
  · refine ⟨((Double.shortest c e).trim 20).text.toList ++ rest, ?_,
      Double.readNumber_text negative hplace hr⟩
    unfold realText Double.text
    dsimp only
    rw [if_neg hplace.positive.ne', String.toList_append, hsign, List.append_assoc]

end Tokens

/-! ## 4. Documents -/

section Documents

variable (indent : Option Int)

/-- The characters of a document that stands at a level. -/
def chars (level : Nat) (document : Json) : List Char :=
  (joined (piecesAt indent level document)).toList

variable {indent} {depth fuel level : Nat} {rest : List Char}

theorem chars_single {document : Json} (piece : Piece)
    (h : piecesAt indent level document = [piece]) :
    chars indent level document = piece.written.toList := by
  rw [chars, h, joined_single]

/-- The characters may begin a document: they begin neither with a space nor with the end of an
array. -/
def Begins (cs : List Char) : Prop := ∃ c tail, cs = c :: tail ∧ isSpace c = false ∧ c ≠ ']'

theorem Begins.skip {cs : List Char} (h : Begins cs) (rest : List Char) :
    skipSpace (cs ++ rest) = cs ++ rest := by
  obtain ⟨c, tail, rfl, hc, -⟩ := h
  unfold skipSpace
  rw [List.cons_append, List.dropWhile_cons, hc]
  rfl

theorem begins_number {negative : Bool} {cs : List Char} {result : Json × List Char}
    (h : readNumber negative cs = some result) : Begins (signText negative ++ cs) := by
  obtain ⟨c, tail, rfl, hc⟩ := readNumber_head h
  cases negative with
  | true => exact ⟨'-', c :: tail, rfl, by decide, by decide⟩
  | false =>
    have hne : c ≠ ' ' ∧ c ≠ '\t' ∧ c ≠ '\n' ∧ c ≠ '\r' ∧ c ≠ ']' := by
      refine ⟨?_, ?_, ?_, ?_, ?_⟩ <;> (rintro rfl; revert hc; decide)
    exact ⟨c, tail, rfl, by simp [isSpace, hne], hne.2.2.2.2⟩

theorem begins_enclose {opening closing : String} (first last : Char)
    (ho : opening.toList = [first]) (hc : closing.toList = [last]) (hspace : isSpace first = false)
    (hend : first ≠ ']') (items : List (List Piece)) :
    Begins (joined (enclose opening closing indent level items)).toList := by
  cases items with
  | nil =>
    refine ⟨first, [last], ?_, hspace, hend⟩
    rw [enclose, joined_single, Piece.written, String.toList_append, ho, hc]
    rfl
  | cons item others =>
    rw [joined_enclose indent level opening closing last hc, ho]
    exact ⟨first, _, rfl, hspace, hend⟩

theorem begins_chars {document : Json} (h : Readable depth document) :
    Begins (chars indent level document) := by
  have hends : Ends [] := by simp [Ends]
  cases h with
  | null =>
    rw [chars_single (.text "null") rfl]
    exact ⟨'n', ['u', 'l', 'l'], by simp [Piece.written], by decide, by decide⟩
  | bool b =>
    rw [chars_single (.text (if b then "true" else "false")) rfl]
    cases b with
    | true => exact ⟨'t', ['r', 'u', 'e'], by simp [Piece.written], by decide, by decide⟩
    | false => exact ⟨'f', ['a', 'l', 's', 'e'], by simp [Piece.written], by decide, by decide⟩
  | @int _ n short =>
    obtain ⟨negative, cs, htext, hread⟩ := int_text short hends
    rw [List.append_nil] at htext
    rw [chars_single (.whole n) rfl, Piece.written, htext]
    exact begins_number hread
  | @real _ x canonical =>
    rw [chars_single (.text (realText x)) rfl, Piece.written]
    cases x with
    | nan => exact ⟨'N', ['a', 'N'], by simp [realText], by decide, by decide⟩
    | infinite negative =>
      cases negative with
      | true => exact ⟨'-', "Infinity".toList, by simp [realText], by decide, by decide⟩
      | false => exact ⟨'I', "nfinity".toList, by simp [realText], by decide, by decide⟩
    | finite negative c e =>
      obtain ⟨cs, htext, hread⟩ := real_text canonical hends
      rw [List.append_nil] at htext
      rw [htext]
      exact begins_number hread
  | str s =>
    obtain ⟨more, hmore, -⟩ := readString_stringText s []
    rw [List.append_nil] at hmore
    rw [chars_single (.text (stringText s)) rfl, Piece.written, hmore]
    exact ⟨'"', more, rfl, by decide, by decide⟩
  | arr _ => exact begins_enclose '[' ']' (by simp) (by simp) (by decide) (by decide) _
  | obj _ => exact begins_enclose '\x7b' '\x7d' (by simp) (by simp) (by decide) (by decide) _

/-- The character closes an array or an object. -/
def IsCloser (c : Char) : Prop := c = ']' ∨ c = '\x7d'

theorem ends_tailText {closer : Char} (h : IsCloser closer) (items : List (List Piece)) :
    Ends (tailText indent level closer items ++ rest) := by
  have hends : ∀ c tail, (c = ',' ∨ c = '\n' ∨ IsCloser c) → Ends (c :: tail) := by
    rintro c tail hc d hd
    rw [← Option.some.inj hd]
    rcases hc with rfl | rfl | rfl | rfl <;> decide
  cases items with
  | nil =>
    cases indent with
    | none => exact hends closer rest (.inr (.inr h))
    | some width =>
      rw [tailText, lineBreak, String.toList_ofList]
      exact hends '\n' _ (.inr (.inl rfl))
  | cons item others =>
    obtain ⟨spaces, hsep, -⟩ := separator_toList indent (level + 1)
    rw [tailText, hsep]
    exact hends ',' _ (.inl rfl)

theorem skipSpace_tailText_nil {closer : Char} (h : IsCloser closer) :
    skipSpace (tailText indent level closer [] ++ rest) = closer :: rest := by
  rw [tailText, List.append_assoc, skipSpace_lineBreak]
  rcases h with rfl | rfl <;> rfl

theorem skipSpace_tailText_cons (closer : Char) {item : List Piece} (others : List (List Piece))
    (rest : List Char) (h : Begins (joined item).toList) :
    ∃ more, skipSpace (tailText indent level closer (item :: others) ++ rest) = ',' :: more ∧
      skipSpace more =
        (joined item).toList ++ (tailText indent level closer others ++ rest) := by
  obtain ⟨spaces, hsep, hspaces⟩ := separator_toList indent (level + 1)
  refine ⟨spaces ++ ((joined item).toList ++ (tailText indent level closer others ++ rest)), ?_, ?_⟩
  · rw [tailText, hsep, List.append_assoc, List.cons_append, List.append_assoc]
    rfl
  · rw [hspaces, h.skip]

/-! ### Arrays -/

theorem readItems_last {cs more : List Char} {item : Json}
    (h : readValue depth fuel cs = .ok (item, more)) (hmore : skipSpace more = ']' :: rest) :
    readItems depth (fuel + 1) cs = .ok ([item], rest) := by
  rw [readItems, h]
  simp only [bind, Except.bind, hmore]

theorem readItems_more {cs more others : List Char} {item : Json} {items : List Json}
    (h : readValue depth fuel cs = .ok (item, more)) (hmore : skipSpace more = ',' :: others)
    (hothers : readItems depth fuel (skipSpace others) = .ok (items, rest)) :
    readItems depth (fuel + 1) cs = .ok (item :: items, rest) := by
  rw [readItems, h]
  simp only [bind, Except.bind, hmore, hothers]

theorem readValue_array {cs more : List Char} {items : List Json} (hspace : skipSpace cs = more)
    (hmore : Begins more) (h : readItems depth fuel more = .ok (items, rest)) :
    readValue (depth + 1) (fuel + 1) ('[' :: cs) = .ok (.arr items, rest) := by
  obtain ⟨c, tail, rfl, -, hc⟩ := hmore
  rw [readValue, hspace]
  dsimp only
  split
  · rename_i heq
    exact absurd (List.cons.inj heq).1 hc
  · rw [h]
    rfl

/-- A document is read where it stands at a level, whatever follows it. -/
def ReadsBack (indent : Option Int) (depth : Nat) (document : Json) : Prop :=
  ∀ level fuel rest, Ends rest → 2 * (chars indent level document).length ≤ fuel →
    readValue depth fuel (chars indent level document ++ rest) = .ok (reread document, rest)

theorem readItems_chars {items : List Json} (hi : ∀ item ∈ items, Readable depth item)
    (h : ∀ item ∈ items, ReadsBack indent depth item) {first : Json}
    (hfirst : ReadsBack indent depth first)
    (hfuel : 2 * (chars indent (level + 1) first ++
      tailText indent level ']' (itemPieces indent (level + 1) items)).length ≤ fuel) :
    readItems depth fuel (chars indent (level + 1) first ++
      (tailText indent level ']' (itemPieces indent (level + 1) items) ++ rest)) =
      .ok (reread first :: items.map reread, rest) := by
  induction items generalizing first fuel with
  | nil =>
    rw [itemPieces] at hfuel ⊢
    rw [List.length_append, tailText, List.length_append] at hfuel
    obtain ⟨fuel, rfl⟩ : ∃ more, fuel = more + 1 := ⟨fuel - 1, by simp at hfuel; omega⟩
    refine readItems_last (hfirst _ _ _ (ends_tailText (.inl rfl) _) ?_)
      (skipSpace_tailText_nil (.inl rfl))
    simp only [List.length_singleton] at hfuel
    omega
  | cons second others ih =>
    rw [itemPieces] at hfuel ⊢
    have hsecond := hi second List.mem_cons_self
    have hbegins : Begins (chars indent (level + 1) second) := begins_chars hsecond
    obtain ⟨more, hmore, hskip⟩ :=
      skipSpace_tailText_cons ']' (itemPieces indent (level + 1) others) rest hbegins
    obtain ⟨spaces, hsep, -⟩ := separator_toList indent (level + 1)
    rw [tailText, hsep] at hfuel
    simp only [List.length_append, List.length_cons] at hfuel
    obtain ⟨fuel, rfl⟩ : ∃ more, fuel = more + 1 := ⟨fuel - 1, by omega⟩
    refine readItems_more (hfirst _ _ _ (ends_tailText (.inl rfl) _) (by omega)) hmore ?_
    rw [hskip]
    refine ih (fun item hitem => hi item (List.mem_cons_of_mem _ hitem))
      (fun item hitem => h item (List.mem_cons_of_mem _ hitem)) (h second List.mem_cons_self) ?_
    rw [List.length_append]
    unfold chars
    omega

/-! ### Objects -/

theorem readMembers_last {key : String} {value : Json} {cs afterKey afterColon more : List Char}
    {done : List (String × Json)} (hkey : readString cs = some (key, afterKey))
    (hcolon : skipSpace afterKey = ':' :: afterColon)
    (hvalue : readValue depth fuel (skipSpace afterColon) = .ok (value, more))
    (hmore : skipSpace more = '\x7d' :: rest) :
    readMembers depth (fuel + 1) done ('"' :: cs) = .ok (setMember key value done, rest) := by
  rw [readMembers, token, hkey]
  simp only [bind, Except.bind, hcolon, hvalue, hmore]

theorem readMembers_more {key : String} {value : Json}
    {cs afterKey afterColon more others : List Char} {done members : List (String × Json)}
    (hkey : readString cs = some (key, afterKey))
    (hcolon : skipSpace afterKey = ':' :: afterColon)
    (hvalue : readValue depth fuel (skipSpace afterColon) = .ok (value, more))
    (hmore : skipSpace more = ',' :: others)
    (hothers : readMembers depth fuel (setMember key value done) (skipSpace others) =
      .ok (members, rest)) :
    readMembers depth (fuel + 1) done ('"' :: cs) = .ok (members, rest) := by
  rw [readMembers, token, hkey]
  simp only [bind, Except.bind, hcolon, hvalue, hmore, hothers]

theorem readValue_object {cs more : List Char} {members : List (String × Json)}
    (hspace : skipSpace cs = '"' :: more)
    (h : readMembers depth fuel [] ('"' :: more) = .ok (members, rest)) :
    readValue (depth + 1) (fuel + 1) ('\x7b' :: cs) = .ok (.obj members, rest) := by
  rw [readValue, hspace]
  split
  · rename_i heq
    exact absurd (List.cons.inj heq).1 (by decide)
  · simp only [bind, Except.bind, h]

/-- The pieces of a member. -/
def memberText (indent : Option Int) (level : Nat) (key : String) (value : Json) : List Piece :=
  .text (stringText key ++ ": ") :: piecesAt indent level value

theorem joined_memberText (key : String) (value : Json) :
    (joined (memberText indent level key value)).toList =
      (stringText key).toList ++ (':' :: ' ' :: chars indent level value) := by
  rw [memberText, joined_cons, String.toList_append, Piece.written, String.toList_append,
    List.append_assoc, chars]
  simp

theorem memberText_head (indent : Option Int) (level : Nat) (key : String) (value : Json) :
    ∃ more, (joined (memberText indent level key value)).toList = '"' :: more := by
  obtain ⟨more, hmore, -⟩ :=
    readString_stringText key (':' :: ' ' :: chars indent level value)
  exact ⟨more, by rw [joined_memberText, hmore]⟩

theorem begins_memberText (key : String) (value : Json) :
    Begins (joined (memberText indent level key value)).toList := by
  obtain ⟨more, hmore⟩ := memberText_head indent level key value
  exact ⟨'"', more, hmore, by decide, by decide⟩

/-- A member is read up to what follows it. -/
theorem memberText_read (key : String) {value : Json} (hv : Readable depth value)
    (hvalue : ReadsBack indent depth value) {more : List Char} (hmore : Ends more)
    (hfuel : 2 * (chars indent level value).length ≤ fuel) :
    ∃ cs afterKey afterColon,
      (joined (memberText indent level key value)).toList ++ more = '"' :: cs ∧
        readString cs = some (pairedText key, afterKey) ∧
        skipSpace afterKey = ':' :: afterColon ∧
        readValue depth fuel (skipSpace afterColon) = .ok (reread value, more) := by
  obtain ⟨cs, hcs, hkey⟩ :=
    readString_stringText key (':' :: ' ' :: (chars indent level value ++ more))
  refine ⟨cs, _, ' ' :: (chars indent level value ++ more), ?_, hkey, rfl, ?_⟩
  · rw [joined_memberText, List.append_assoc]
    exact hcs
  · show readValue depth fuel (skipSpace (chars indent level value ++ more)) = _
    rw [(begins_chars hv).skip, hvalue level fuel more hmore hfuel]

theorem length_memberText (indent : Option Int) (level : Nat) (key : String) (value : Json) :
    (chars indent level value).length <
      (joined (memberText indent level key value)).toList.length := by
  rw [joined_memberText]
  simp only [List.length_append, List.length_cons]
  omega

theorem readMembers_chars {members : List (String × Json)}
    (hi : ∀ member ∈ members, Readable depth member.2)
    (h : ∀ member ∈ members, ReadsBack indent depth member.2) {key : String} {value : Json}
    (hv : Readable depth value) (hvalue : ReadsBack indent depth value)
    {done : List (String × Json)}
    (hfuel : 2 * ((joined (memberText indent (level + 1) key value)).toList ++
      tailText indent level '\x7d' (memberPieces indent (level + 1) members)).length ≤ fuel) :
    readMembers depth fuel done ((joined (memberText indent (level + 1) key value)).toList ++
      (tailText indent level '\x7d' (memberPieces indent (level + 1) members) ++ rest)) =
      .ok (rereadMembers done ((key, value) :: members), rest) := by
  have hlength := length_memberText indent (level + 1) key value
  induction members generalizing key value fuel done with
  | nil =>
    rw [memberPieces, List.length_append] at hfuel
    obtain ⟨fuel, rfl⟩ : ∃ more, fuel = more + 1 := ⟨fuel - 1, by omega⟩
    have hfit : 2 * (chars indent (level + 1) value).length ≤ fuel := by omega
    obtain ⟨cs, afterKey, afterColon, hcs, hkey, hcolon, hread⟩ :=
      memberText_read key hv hvalue (ends_tailText (.inr rfl) []) hfit
    rw [memberPieces, hcs]
    exact readMembers_last hkey hcolon hread (skipSpace_tailText_nil (.inr rfl))
  | cons second others ih =>
    obtain ⟨nextKey, nextValue⟩ := second
    have hnextValue : Readable depth nextValue := hi (nextKey, nextValue) List.mem_cons_self
    have hnext : Begins (joined (memberText indent (level + 1) nextKey nextValue)).toList :=
      begins_memberText nextKey nextValue
    obtain ⟨more, hmore, hskip⟩ :=
      skipSpace_tailText_cons '\x7d' (memberPieces indent (level + 1) others) rest hnext
    obtain ⟨spaces, hsep, -⟩ := separator_toList indent (level + 1)
    have hpieces : memberPieces indent (level + 1) ((nextKey, nextValue) :: others) =
        memberText indent (level + 1) nextKey nextValue ::
          memberPieces indent (level + 1) others := rfl
    rw [hpieces, List.length_append, tailText, hsep] at hfuel
    simp only [List.length_append, List.length_cons] at hfuel
    obtain ⟨fuel, rfl⟩ : ∃ more, fuel = more + 1 := ⟨fuel - 1, by omega⟩
    have hfit : 2 * (chars indent (level + 1) value).length ≤ fuel := by omega
    obtain ⟨cs, afterKey, afterColon, hcs, hkey, hcolon, hread⟩ :=
      memberText_read key hv hvalue (ends_tailText (.inr rfl)
        (memberText indent (level + 1) nextKey nextValue ::
          memberPieces indent (level + 1) others)) hfit
    rw [hpieces, hcs]
    refine readMembers_more hkey hcolon hread hmore ?_
    rw [hskip]
    refine ih (fun member hm => hi member (List.mem_cons_of_mem _ hm))
      (fun member hm => h member (List.mem_cons_of_mem _ hm))
      hnextValue (h (nextKey, nextValue) List.mem_cons_self)
      ?_ (length_memberText indent (level + 1) nextKey nextValue)
    rw [List.length_append]
    omega

/-! ### All documents -/

/-- A document of one piece is read back if its text is. -/
theorem readsBack_single {document : Json} (piece : Piece)
    (hpiece : ∀ level, piecesAt indent level document = [piece])
    (hread : ∀ fuel rest, Ends rest →
      readValue depth (fuel + 1) (piece.written.toList ++ rest) = .ok (reread document, rest)) :
    ReadsBack indent depth document := by
  -- nothing is read of no text
  have hne : piece.written.toList ≠ [] := by
    intro he
    have hnone := hread 0 [] (by simp [Ends])
    rw [he] at hnone
    cases hnone
  intro level fuel rest hrest hfuel
  rw [chars_single piece (hpiece level)] at hfuel ⊢
  have hpos := List.length_pos_of_ne_nil hne
  obtain ⟨fuel, rfl⟩ : ∃ more, fuel = more + 1 := ⟨fuel - 1, by omega⟩
  exact hread fuel rest hrest

theorem readsBack_word (word : String) {document : Json} (h : (word, document) ∈ words)
    (hpiece : ∀ level, piecesAt indent level document = [.text word])
    (hsame : reread document = document) : ReadsBack indent depth document := by
  refine readsBack_single (.text word) hpiece fun fuel rest _ => ?_
  rw [hsame]
  exact readValue_word h depth fuel

theorem readsBack_int {n : Int} (short : n.natAbs < 10 ^ maxDigits) :
    ReadsBack indent depth (.int n) := by
  refine readsBack_single (.whole n) (fun _ => rfl) fun fuel rest hrest => ?_
  obtain ⟨negative, cs, htext, hread⟩ := int_text short hrest
  rw [Piece.written, htext]
  exact readValue_number hread depth fuel

theorem readsBack_real {x : Double} (canonical : x.Canonical) :
    ReadsBack indent depth (.real x) := by
  cases x with
  | nan => exact readsBack_word "NaN" (by simp [words]) (fun _ => rfl) rfl
  | infinite negative =>
    cases negative with
    | true => exact readsBack_word "-Infinity" (by simp [words]) (fun _ => rfl) rfl
    | false => exact readsBack_word "Infinity" (by simp [words]) (fun _ => rfl) rfl
  | finite negative c e =>
    refine readsBack_single (.text (realText (.finite negative c e))) (fun _ => rfl)
      fun fuel rest hrest => ?_
    obtain ⟨cs, htext, hread⟩ := real_text canonical hrest
    rw [Piece.written, htext]
    exact readValue_number hread depth fuel

theorem readsBack_str (s : String) : ReadsBack indent depth (.str s) := by
  refine readsBack_single (.text (stringText s)) (fun _ => rfl) fun fuel rest _ => ?_
  obtain ⟨more, hmore, hread⟩ := readString_stringText s rest
  rw [Piece.written, hmore, readValue, token, hread]
  rfl

/-- An array is read back if its items are. -/
theorem readsBack_arr {items : List Json} (all : ∀ item ∈ items, Readable depth item)
    (h : ∀ item ∈ items, ReadsBack indent depth item) :
    ReadsBack indent (depth + 1) (.arr items) := by
  cases items with
  | nil =>
    refine readsBack_single (.text ("[" ++ "]")) (fun _ => rfl) fun fuel rest _ => ?_
    have hwritten : (Piece.text ("[" ++ "]")).written.toList = ['[', ']'] := by
      simp [Piece.written]
    rw [hwritten, List.cons_append, readValue]
    rfl
  | cons first others =>
    intro level fuel rest _ hfuel
    have hchars : chars indent level (.arr (first :: others)) = '[' ::
        ((lineBreak indent (level + 1)).toList ++ (chars indent (level + 1) first ++
          tailText indent level ']' (itemPieces indent (level + 1) others))) := by
      rw [chars, piecesAt, itemPieces, joined_enclose indent level "[" "]" ']' (by simp)]
      simp [chars]
    rw [hchars] at hfuel ⊢
    simp only [List.length_cons, List.length_append] at hfuel
    obtain ⟨fuel, rfl⟩ : ∃ more, fuel = more + 1 := ⟨fuel - 1, by omega⟩
    have hfirst : Begins (chars indent (level + 1) first) :=
      begins_chars (all first List.mem_cons_self)
    rw [List.cons_append, List.append_assoc, List.append_assoc, reread, rereadItems,
      rereadItems_eq]
    refine readValue_array (skipSpace_lineBreak indent (level + 1) _) ?_ ?_
    · rw [hfirst.skip]
      obtain ⟨c, tail, hc, hspace, hend⟩ := hfirst
      rw [hc]
      exact ⟨c, _, rfl, hspace, hend⟩
    · rw [hfirst.skip]
      refine readItems_chars (fun item hitem => all item (List.mem_cons_of_mem _ hitem))
        (fun item hitem => h item (List.mem_cons_of_mem _ hitem)) (h first List.mem_cons_self) ?_
      rw [List.length_append]
      omega

/-- An object is read back if the values of its members are. -/
theorem readsBack_obj {members : List (String × Json)}
    (all : ∀ member ∈ members, Readable depth member.2)
    (h : ∀ member ∈ members, ReadsBack indent depth member.2) :
    ReadsBack indent (depth + 1) (.obj members) := by
  cases members with
  | nil =>
    refine readsBack_single (.text ("\x7b" ++ "\x7d")) (fun _ => rfl) fun fuel rest _ => ?_
    have hwritten : (Piece.text ("\x7b" ++ "\x7d")).written.toList = ['\x7b', '\x7d'] := by
      simp [Piece.written]
    rw [hwritten, List.cons_append, readValue]
    rfl
  | cons first others =>
    obtain ⟨key, value⟩ := first
    intro level fuel rest _ hfuel
    have hchars : chars indent level (.obj ((key, value) :: others)) = '\x7b' ::
        ((lineBreak indent (level + 1)).toList ++
          ((joined (memberText indent (level + 1) key value)).toList ++
            tailText indent level '\x7d' (memberPieces indent (level + 1) others))) := by
      rw [chars, piecesAt, memberPieces,
        joined_enclose indent level "\x7b" "\x7d" '\x7d' (by simp)]
      simp [memberText]
    rw [hchars] at hfuel ⊢
    simp only [List.length_cons, List.length_append] at hfuel
    obtain ⟨fuel, rfl⟩ : ∃ more, fuel = more + 1 := ⟨fuel - 1, by omega⟩
    have hvalue : Readable depth value := all (key, value) List.mem_cons_self
    have hfirst : Begins (joined (memberText indent (level + 1) key value)).toList :=
      begins_memberText key value
    obtain ⟨more, hmore⟩ := memberText_head indent (level + 1) key value
    rw [List.cons_append, List.append_assoc, List.append_assoc, reread]
    refine readValue_object (?_ : _ = '"' :: (more ++ (tailText indent level '\x7d'
      (memberPieces indent (level + 1) others) ++ rest))) ?_
    · rw [skipSpace_lineBreak, hfirst.skip, hmore]
      rfl
    · rw [← List.cons_append, ← hmore]
      refine readMembers_chars (fun member hm => all member (List.mem_cons_of_mem _ hm))
        (fun member hm => h member (List.mem_cons_of_mem _ hm)) hvalue
        (h (key, value) List.mem_cons_self) ?_
      rw [List.length_append]
      omega

/-- **A document within the limits is read back**, wherever it stands. -/
theorem Readable.readsBack {document : Json} (h : Readable depth document) :
    ReadsBack indent depth document := by
  induction h with
  | null => exact readsBack_word "null" (by simp [words]) (fun _ => rfl) rfl
  | bool b =>
    cases b with
    | true => exact readsBack_word "true" (by simp [words]) (fun _ => rfl) rfl
    | false => exact readsBack_word "false" (by simp [words]) (fun _ => rfl) rfl
  | int short => exact readsBack_int short
  | real canonical => exact readsBack_real canonical
  | str s => exact readsBack_str s
  | arr all ih => exact readsBack_arr all ih
  | obj all ih => exact readsBack_obj all ih

end Documents

/-! ## 5. Whole texts -/

/-- **The text of a document within the limits is read as the document**, whatever its indent. -/
theorem parse_text (indent : Option Int) {document : Json} (h : Readable maxNesting document) :
    parse (text indent document) = .ok (reread document) := by
  have hbegins : Begins (chars indent 0 document) := begins_chars h
  have hread : readValue maxNesting (2 * (chars indent 0 document).length + 2)
      (chars indent 0 document ++ []) = .ok (reread document, []) :=
    h.readsBack 0 _ [] (by simp [Ends]) (Nat.le_add_right _ 2)
  have hskip := hbegins.skip []
  rw [List.append_nil] at hread hskip
  have hchars : (text indent document).toList = chars indent 0 document := rfl
  unfold parse
  dsimp only
  rw [hchars, hskip, hread]
  rfl

/-- What holds of every member's value once it is read holds of every member of the object that is
read. -/
theorem forall_rereadMembers {P : Json → Prop} {members done : List (String × Json)}
    (hall : ∀ member ∈ members, P member.2.reread) (hdone : ∀ member ∈ done, P member.2) :
    ∀ member ∈ rereadMembers done members, P member.2 := by
  induction members generalizing done with
  | nil => exact hdone
  | cons first rest ih =>
    refine ih (fun member hm => hall member (List.mem_cons_of_mem _ hm)) fun member hmember => ?_
    rcases mem_setMember hmember with hmember | hvalue
    · exact hdone member hmember
    · rw [hvalue]
      exact hall first List.mem_cons_self

/-- Reading back keeps a document within the limits. -/
theorem Readable.reread {depth : Nat} {document : Json} (h : Readable depth document) :
    Readable depth document.reread := by
  induction h with
  | null => exact .null
  | bool b => exact .bool b
  | int short => exact .int short
  | real canonical => exact .real canonical
  | str s => exact .str _
  | arr _ ih =>
    rw [Json.reread, rereadItems_eq]
    refine .arr fun item hitem => ?_
    obtain ⟨original, horiginal, rfl⟩ := List.mem_map.mp hitem
    exact ih original horiginal
  | obj _ ih => exact .obj (forall_rereadMembers ih (by simp))

end Dissect.Json
