/-
# What the reader accepts

Everything that the reader accepts is within the limits that it sets (`readable_of_parse`), and
everything within the limits can be written in full (`Readable.isWritable`).  So the text of a document
that has been read, and that of one made up of such documents, is read again.
-/
import Dissect.Proofs.DocumentTexts
import Dissect.Proofs.Results

namespace Dissect.Json

open Text (isDigit)
open Double (digitsValue)

/-! ## 1. Numbers -/

variable {rest : List Char}

theorem digitsValue_lt : ∀ {cs : List Char}, AllDigits cs → digitsValue cs < 10 ^ cs.length := by
  intro cs
  induction cs using List.reverseRecOn with
  | nil => exact fun _ => Nat.one_pos
  | append_singleton cs c ih =>
    intro hall
    have hc : isDigit c = true := hall c (List.mem_append_right _ (List.mem_singleton_self c))
    have hvalue : digitsValue [c] < 10 := by
      simp only [isDigit, Bool.and_eq_true, decide_eq_true_eq, Char.le_def] at hc
      have hc' : c.toNat ≤ '9'.toNat := UInt32.le_iff_toNat_le.mp hc.2
      have h : digitsValue [c] = c.toNat - '0'.toNat := by simp [digitsValue]
      rw [h]
      simp only [Char.reduceToNat] at hc' ⊢
      omega
    have hcs := ih fun d hd => hall d (List.mem_append_left _ hd)
    rw [digitsValue_append, List.length_append, List.length_singleton, Nat.pow_one, Nat.pow_succ]
    omega

theorem allDigits_of_readWhole {cs whole : List Char} (h : readWhole cs = some (whole, rest)) :
    AllDigits whole := by
  unfold readWhole at h
  split at h
  · obtain ⟨rfl, -⟩ := Prod.mk.inj (Option.some.inj h)
    exact allDigits_zeros 1
  · split at h
    · cases h
    · obtain ⟨rfl, -⟩ := Prod.mk.inj (Option.some.inj h)
      exact List.all_eq_true.mp List.all_takeWhile

theorem canonical_ofDigits (negative : Bool) (whole fraction : List Char) (e : Int) :
    (Double.ofDigits negative whole fraction e).Canonical := by
  rw [ofDigits_eq]
  exact Double.canonical_round negative (Double.decimalValue_nonneg _ _)

theorem readable_of_readNumber {depth : Nat} {negative : Bool} {cs : List Char} {document : Json}
    (h : readNumber negative cs = some (document, rest)) : Readable depth document := by
  unfold readNumber at h
  obtain ⟨⟨whole, more⟩, hwhole, h⟩ := Option.bind_eq_some_iff.mp h
  dsimp only at h
  split at h
  · obtain ⟨rfl, -⟩ := Prod.mk.inj (Option.some.inj h)
    exact .real (canonical_ofDigits _ _ _ _)
  · split at h
    · split at h
      · cases h
      · rename_i hlength
        obtain ⟨rfl, -⟩ := Prod.mk.inj (Option.some.inj h)
        have hlt := digitsValue_lt (allDigits_of_readWhole hwhole)
        have hle : (10 : Nat) ^ whole.length ≤ 10 ^ maxDigits :=
          Nat.pow_le_pow_right (by decide) (Nat.le_of_not_lt hlength)
        refine .int (Nat.lt_of_lt_of_le ?_ hle)
        split
        · rw [Int.natAbs_neg, Int.natAbs_natCast]
          exact hlt
        · rw [Int.natAbs_natCast]
          exact hlt
    · obtain ⟨rfl, -⟩ := Prod.mk.inj (Option.some.inj h)
      exact .real (canonical_ofDigits _ _ _ _)

theorem readable_of_readWord {depth : Nat} {cs : List Char} {document : Json}
    (h : readWord cs = some (document, rest)) : Readable depth document := by
  unfold readWord at h
  obtain ⟨⟨word, value⟩, hmem, hword⟩ := List.exists_of_findSome?_eq_some h
  dsimp only at hword
  split at hword
  · obtain ⟨rfl, -⟩ := Prod.mk.inj (Option.some.inj hword)
    simp only [words, List.mem_cons, Prod.mk.injEq, List.not_mem_nil, or_false] at hmem
    rcases hmem with ⟨-, rfl⟩ | ⟨-, rfl⟩ | ⟨-, rfl⟩ | ⟨-, rfl⟩ | ⟨-, rfl⟩ | ⟨-, rfl⟩
    · exact .null
    · exact .bool true
    · exact .bool false
    · exact .real trivial
    · exact .real trivial
    · exact .real trivial
  · cases hword

/-! ## 2. Documents -/

/-- What the readers of documents, of items and of members accept with some fuel is readable. -/
structure Bounded (fuel : Nat) : Prop where
  value : ∀ {depth : Nat} {cs rest : List Char} {document : Json},
    readValue depth fuel cs = .ok (document, rest) → Readable depth document
  items : ∀ {depth : Nat} {cs rest : List Char} {items : List Json},
    readItems depth fuel cs = .ok (items, rest) → ∀ item ∈ items, Readable depth item
  members : ∀ {depth : Nat} {cs rest : List Char} {done members : List (String × Json)},
    (∀ member ∈ done, Readable depth member.2) →
    readMembers depth fuel done cs = .ok (members, rest) →
    ∀ member ∈ members, Readable depth member.2

theorem token_ok {α : Type} {read : TokenReader α} {cs : List Char} {result : α × List Char}
    (h : token read cs = .ok result) : read cs = some result := by
  unfold token at h
  split at h
  · rename_i hread
    rw [hread, Except.ok.inj h]
  · cases h

section Step

variable {fuel depth : Nat} {cs : List Char}

/-- A document with one step more of fuel is readable. -/
theorem Bounded.value_succ (ih : Bounded fuel) {document : Json}
    (h : readValue depth (fuel + 1) cs = .ok (document, rest)) : Readable depth document := by
  unfold readValue at h
  split at h
  · obtain ⟨⟨s, more⟩, hs, h⟩ := ok_of_bind h
    obtain ⟨rfl, -⟩ := Prod.mk.inj (Except.ok.inj h)
    exact .str s
  · cases h
  · split at h
    · obtain ⟨rfl, -⟩ := Prod.mk.inj (Except.ok.inj h)
      exact .arr (by simp)
    · obtain ⟨⟨items, more⟩, hitems, h⟩ := ok_of_bind h
      obtain ⟨rfl, -⟩ := Prod.mk.inj (Except.ok.inj h)
      exact .arr (ih.items hitems)
  · cases h
  · split at h
    · obtain ⟨rfl, -⟩ := Prod.mk.inj (Except.ok.inj h)
      exact .obj (by simp)
    · obtain ⟨⟨members, more⟩, hmembers, h⟩ := ok_of_bind h
      obtain ⟨rfl, -⟩ := Prod.mk.inj (Except.ok.inj h)
      exact .obj (ih.members (by simp) hmembers)
  · split at h
    · rename_i hword
      rw [Except.ok.inj h] at hword
      exact readable_of_readWord hword
    · split at h
      · exact readable_of_readNumber (token_ok h)
      · exact readable_of_readNumber (token_ok h)

/-- The items are readable with one step more of fuel. -/
theorem Bounded.items_succ (ih : Bounded fuel) {items : List Json}
    (h : readItems depth (fuel + 1) cs = .ok (items, rest)) :
    ∀ item ∈ items, Readable depth item := by
  rw [readItems] at h
  obtain ⟨⟨item, more⟩, hitem, h⟩ := ok_of_bind h
  have hfirst := ih.value hitem
  dsimp only at h
  split at h
  · obtain ⟨rfl, -⟩ := Prod.mk.inj (Except.ok.inj h)
    exact List.forall_mem_singleton.mpr hfirst
  · obtain ⟨⟨others, more⟩, hothers, h⟩ := ok_of_bind h
    obtain ⟨rfl, -⟩ := Prod.mk.inj (Except.ok.inj h)
    exact List.forall_mem_cons.mpr ⟨hfirst, ih.items hothers⟩
  · cases h

/-- The members are readable with one step more of fuel: those from before, those that follow, and
the one that is set between them. -/
theorem Bounded.members_succ (ih : Bounded fuel) {done members : List (String × Json)}
    (hdone : ∀ member ∈ done, Readable depth member.2)
    (h : readMembers depth (fuel + 1) done cs = .ok (members, rest)) :
    ∀ member ∈ members, Readable depth member.2 := by
  rw [readMembers.eq_def] at h
  dsimp only at h
  split at h
  · obtain ⟨⟨key, more⟩, hkey, h⟩ := ok_of_bind h
    dsimp only at h
    split at h
    · obtain ⟨⟨value, more⟩, hvalue, h⟩ := ok_of_bind h
      have hset : ∀ member ∈ setMember key value done, Readable depth member.2 := by
        intro member hmember
        rcases mem_setMember hmember with hmember | heq
        · exact hdone member hmember
        · rw [heq]
          exact ih.value hvalue
      dsimp only at h
      split at h
      · obtain ⟨rfl, -⟩ := Prod.mk.inj (Except.ok.inj h)
        exact hset
      · exact ih.members hset h
      · cases h
    · cases h
  · cases h

end Step

/-- The readers accept readable documents only, with any fuel. -/
theorem bounded : ∀ fuel, Bounded fuel
  | 0 =>
    { value := fun h => by rw [readValue] at h; cases h
      items := fun h => by rw [readItems] at h; cases h
      members := fun _ h => by rw [readMembers] at h; cases h }
  | fuel + 1 =>
    have ih := bounded fuel
    ⟨ih.value_succ, ih.items_succ, ih.members_succ⟩

/-- **Every document that is read is within the limits.** -/
theorem readable_of_parse {s : String} {document : Json} (h : parse s = .ok document) :
    Readable maxNesting document := by
  unfold parse at h
  obtain ⟨⟨read, more⟩, hread, h⟩ := ok_of_bind h
  dsimp only at h
  split at h
  · obtain rfl := Except.ok.inj h
    exact (bounded _).value hread
  · cases h

/-! ## 3. Writing in full -/

section Layout

variable (indent : Option Int) (level : Nat)

/-- A property of all pieces of an array or an object is one of the pieces of its items, if the
layout has it. -/
theorem all_enclose {p : Piece → Bool} (opening closing : String)
    (hboth : p (.text (opening ++ closing)) = true)
    (hopening : p (.text (opening ++ lineBreak indent (level + 1))) = true)
    (hclosing : p (.text (lineBreak indent level ++ closing)) = true)
    (hseparator : p (.text (separator indent (level + 1))) = true) (items : List (List Piece)) :
    (enclose opening closing indent level items).all p = items.all fun item => item.all p := by
  cases items with
  | nil => simp [enclose, hboth]
  | cons first rest =>
    have hflat : (((first :: rest).intersperse [.text (separator indent (level + 1))]).flatten).all
        p = (first :: rest).all fun item => item.all p := by
      induction rest generalizing first with
      | nil => simp
      | cons second rest ih =>
        rw [List.intersperse_cons_cons, List.flatten_cons, List.flatten_cons, List.all_append,
          List.all_append, ih second]
        simp [hseparator]
    unfold enclose
    dsimp only
    rw [List.all_append, List.all_cons, hflat]
    simp [hopening, hclosing]

theorem short_enclose (opening closing : String) (items : List (List Piece)) :
    (enclose opening closing indent level items).all Piece.isShort =
      items.all fun item => item.all Piece.isShort :=
  all_enclose indent level opening closing rfl rfl rfl rfl items

end Layout

mutual

/-- Whether a document can be written does not depend on where it stands. -/
theorem short_pieces (indent : Option Int) : ∀ {level : Nat} (document : Json),
    (piecesAt indent level document).all Piece.isShort = document.isWritable
  | _, .null => rfl
  | _, .bool _ => rfl
  | _, .int _ => rfl
  | _, .real _ => rfl
  | _, .str _ => rfl
  | _, .arr items => by
    unfold isWritable
    rw [piecesAt, piecesAt, short_enclose, short_enclose, short_items indent items,
      short_items none items]
  | _, .obj members => by
    unfold isWritable
    rw [piecesAt, piecesAt, short_enclose, short_enclose, short_members indent members,
      short_members none members]

theorem short_items (indent : Option Int) : ∀ {level : Nat} (items : List Json),
    ((itemPieces indent level items).all fun item => item.all Piece.isShort) =
      items.all isWritable
  | _, [] => rfl
  | _, item :: rest => by
    rw [itemPieces, List.all_cons, List.all_cons, short_pieces indent item, short_items indent rest]

theorem short_members (indent : Option Int) : ∀ {level : Nat} (members : List (String × Json)),
    ((memberPieces indent level members).all fun member => member.all Piece.isShort) =
      members.all fun member => member.2.isWritable
  | _, [] => rfl
  | _, (key, value) :: rest => by
    rw [memberPieces, List.all_cons, List.all_cons, List.all_cons, short_pieces indent value,
      short_members indent rest]
    rfl

end

theorem tooLong_eq : tooLong = 10 ^ maxDigits := by
  -- the power must not be evaluated
  delta tooLong maxDigits
  generalize 4300 = digits
  exact Nat.pow_eq

theorem isWritable_int (n : Int) : isWritable (.int n) = decide (n.natAbs < tooLong) := by
  unfold isWritable
  rw [piecesAt, List.all_cons, List.all_nil, Bool.and_true, Piece.isShort]

theorem isWritable_arr (items : List Json) : isWritable (.arr items) = items.all isWritable := by
  unfold isWritable
  rw [piecesAt, short_enclose, short_items none items]
  rfl

theorem isWritable_obj (members : List (String × Json)) :
    isWritable (.obj members) = members.all fun member => member.2.isWritable := by
  unfold isWritable
  rw [piecesAt, short_enclose, short_members none members]
  rfl

/-- **Every document within the limits can be written in full.** -/
theorem Readable.isWritable {depth : Nat} {document : Json} (h : Readable depth document) :
    document.isWritable = true := by
  induction h with
  | null => rfl
  | bool b => rfl
  | int short =>
    rw [isWritable_int]
    exact decide_eq_true (tooLong_eq ▸ short)
  | real canonical => rfl
  | str s => rfl
  | arr _ ih =>
    rw [isWritable_arr]
    exact List.all_eq_true.mpr ih
  | obj _ ih =>
    rw [isWritable_obj]
    exact List.all_eq_true.mpr ih

/-- A document that can be written is written in full. -/
theorem writableText_eq (indent : Option Int) {document : Json} (h : document.isWritable = true) :
    document.writableText indent = document.text indent := by
  have hall : (piecesAt indent 0 document).all Piece.isShort = true := by
    rw [short_pieces, h]
  have htake : (piecesAt indent 0 document ++ []).takeWhile Piece.isShort =
      piecesAt indent 0 document ++ [].takeWhile Piece.isShort :=
    List.takeWhile_append_of_pos (List.all_eq_true.mp hall)
  rw [List.append_nil, List.takeWhile_nil, List.append_nil] at htake
  rw [writableText, htake, text]

/-! ## 4. Line ends

The text of a document is written to a file whose line ends are unified when it is read.  There is no
CR in it, so this changes nothing. -/

/-- The text has no CR. -/
def NoReturn (s : String) : Prop := '\r' ∉ s.toList

theorem NoReturn.append {s t : String} (hs : NoReturn s) (ht : NoReturn t) : NoReturn (s ++ t) := by
  intro h
  rw [String.toList_append] at h
  exact (List.mem_append.mp h).elim hs ht

theorem return_not_mem_digits {cs : List Char} (h : AllDigits cs) : '\r' ∉ cs := fun hmem =>
  absurd (h _ hmem) (by decide)

theorem noReturn_nat (n : Nat) : NoReturn (toString n) := by
  unfold NoReturn
  rw [toList_toString]
  exact return_not_mem_digits (allDigits_toDigits n)

theorem noReturn_int (n : Int) : NoReturn (toString n) := by
  cases n with
  | ofNat n => exact noReturn_nat n
  | negSucc n =>
    have htext : toString (Int.negSucc n) = "-" ++ toString (n + 1) := rfl
    rw [htext]
    exact NoReturn.append (by simp [NoReturn]) (noReturn_nat (n + 1))

theorem noReturn_exponentText (e : Int) : NoReturn (Double.exponentText e) := by
  unfold Double.exponentText
  refine NoReturn.append ?_ ?_
  · split <;> simp [NoReturn]
  · split
    · exact NoReturn.append (by simp [NoReturn]) (noReturn_nat _)
    · exact noReturn_nat _

theorem noReturn_decimal (d : Double.Decimal) : NoReturn d.text := by
  have hdigits : '\r' ∉ (toString d.digits).toList := noReturn_nat d.digits
  have hexponent : ∀ e, '\r' ∉ (Double.exponentText e).toList := noReturn_exponentText
  have hzeros : ∀ n, '\r' ∉ List.replicate n '0' := fun n =>
    return_not_mem_digits (allDigits_zeros n)
  unfold Double.Decimal.text NoReturn
  generalize (toString d.digits).toList = digits at hdigits ⊢
  have htake : ∀ n, '\r' ∉ digits.take n := fun n h => hdigits (List.mem_of_mem_take h)
  have hdrop : ∀ n, '\r' ∉ digits.drop n := fun n h => hdigits (List.mem_of_mem_drop h)
  dsimp only
  split
  · split
    · simp [hzeros, hdigits]
    · split
      · simp [hzeros, hdigits]
      · simp [htake, hdrop]
  · split
    · simp
    · rename_i c
      simp only [String.toList_append, String.toList_singleton, List.mem_append, not_or]
      exact ⟨hdigits, hexponent _⟩
    · rename_i c rest _
      simp only [List.mem_cons, not_or] at hdigits
      simp [hdigits, hexponent]

theorem noReturn_real (x : Double) : NoReturn (realText x) := by
  cases x with
  | nan => simp [NoReturn, realText]
  | infinite negative => cases negative <;> simp [NoReturn, realText]
  | finite negative c e =>
    have hsign : NoReturn (if negative = true then "-" else "") := by
      cases negative <;> simp [NoReturn]
    unfold realText Double.text
    dsimp only
    split
    · exact hsign.append (by simp [NoReturn])
    · exact hsign.append (noReturn_decimal _)

theorem return_not_mem_escapeChar (c : Char) : '\r' ∉ escapeChar c := by
  have hunit : ∀ n, '\r' ∉ escapeUnit n := by
    have hdigit : ∀ k : Fin 16, Text.hexDigit k.val ≠ '\r' := by decide
    have hdigits : ∀ width n, '\r' ∉ Text.hexDigits width n := by
      intro width
      induction width with
      | zero => simp [Text.hexDigits]
      | succ width ih =>
        intro n
        have hlast := hdigit ⟨n % 16, Nat.mod_lt _ (by decide)⟩
        simp [Text.hexDigits, ih, hlast.symm]
    intro n
    simp [escapeUnit, hdigits]
  have hwritten := written_escapeChar c
  generalize escapeChar c = cs at hwritten ⊢
  cases hwritten with
  | plain _ _ printable _ =>
    intro h
    rw [← List.mem_singleton.mp h] at printable
    exact absurd printable (by decide)
  | short d _ _ reads =>
    intro h
    rcases List.mem_cons.mp h with h | h
    · exact absurd h (by decide)
    · rw [← List.mem_singleton.mp h] at reads
      cases reads []
  | unit _ => exact hunit _
  | pair _ _ =>
    intro h
    exact (List.mem_append.mp h).elim (hunit _) (hunit _)

theorem noReturn_stringText (s : String) : NoReturn (stringText s) := by
  unfold NoReturn stringText
  rw [String.toList_ofList]
  simp only [List.cons_append, List.mem_cons, List.mem_append, List.mem_flatMap,
    not_or, not_exists, not_and]
  exact ⟨by decide, fun c _ => return_not_mem_escapeChar c, by decide⟩

section Layout

variable (indent : Option Int) (level : Nat)

theorem noReturn_lineBreak : NoReturn (lineBreak indent level) := by
  cases indent with
  | none => simp [NoReturn, lineBreak]
  | some width => simp [NoReturn, lineBreak]

/-- The text of the piece has no CR. -/
def Piece.isUnbroken (piece : Piece) : Bool := !piece.written.toList.contains '\r'

theorem isUnbroken_iff {piece : Piece} : piece.isUnbroken = true ↔ NoReturn piece.written := by
  simp [Piece.isUnbroken, NoReturn]

theorem unbroken_text {s : String} (h : NoReturn s) : (Piece.text s).isUnbroken = true :=
  isUnbroken_iff.mpr h

theorem unbroken_whole (n : Int) : (Piece.whole n).isUnbroken = true :=
  isUnbroken_iff.mpr (noReturn_int n)

theorem unbroken_enclose {opening closing : String} (ho : NoReturn opening) (hc : NoReturn closing)
    (items : List (List Piece)) :
    (enclose opening closing indent level items).all Piece.isUnbroken =
      items.all fun item => item.all Piece.isUnbroken := by
  refine all_enclose indent level opening closing ?_ ?_ ?_ ?_ items
  · exact unbroken_text (ho.append hc)
  · exact unbroken_text (ho.append (noReturn_lineBreak indent (level + 1)))
  · exact unbroken_text ((noReturn_lineBreak indent level).append hc)
  · refine unbroken_text ?_
    cases indent with
    | none => simp [NoReturn, separator]
    | some width =>
      have hbreak := noReturn_lineBreak (some width) (level + 1)
      exact NoReturn.append (by simp [NoReturn]) hbreak

end Layout

mutual

theorem unbroken_pieces (indent : Option Int) : ∀ {level : Nat} (document : Json),
    (piecesAt indent level document).all Piece.isUnbroken = true
  | _, .null => by simp [piecesAt, Piece.isUnbroken, Piece.written]
  | _, .bool b => by cases b <;> simp [piecesAt, Piece.isUnbroken, Piece.written]
  | _, .int n => by
    rw [piecesAt, List.all_cons, unbroken_whole n]
    rfl
  | _, .real x => by
    rw [piecesAt, List.all_cons, unbroken_text (noReturn_real x)]
    rfl
  | _, .str s => by
    rw [piecesAt, List.all_cons, unbroken_text (noReturn_stringText s)]
    rfl
  | _, .arr items => by
    rw [piecesAt, unbroken_enclose indent _ (by simp [NoReturn]) (by simp [NoReturn]),
      unbroken_items indent items]
  | _, .obj members => by
    rw [piecesAt, unbroken_enclose indent _ (by simp [NoReturn]) (by simp [NoReturn]),
      unbroken_members indent members]

theorem unbroken_items (indent : Option Int) : ∀ {level : Nat} (items : List Json),
    ((itemPieces indent level items).all fun item => item.all Piece.isUnbroken) = true
  | _, [] => rfl
  | _, item :: rest => by
    rw [itemPieces, List.all_cons, unbroken_pieces indent item, unbroken_items indent rest]
    rfl

theorem unbroken_members (indent : Option Int) : ∀ {level : Nat} (members : List (String × Json)),
    ((memberPieces indent level members).all fun member => member.all Piece.isUnbroken) = true
  | _, [] => rfl
  | _, (key, value) :: rest => by
    have hkey : NoReturn (stringText key ++ ": ") :=
      (noReturn_stringText key).append (by simp [NoReturn])
    rw [memberPieces, List.all_cons, List.all_cons, unbroken_pieces indent value,
      unbroken_members indent rest, unbroken_text hkey]
    rfl

end

/-- **The text of a document has no CR.** -/
theorem noReturn_text (indent : Option Int) (document : Json) : NoReturn (document.text indent) := by
  have hall : ∀ piece ∈ piecesAt indent 0 document, piece.isUnbroken = true :=
    List.all_eq_true.mp (unbroken_pieces indent document)
  unfold NoReturn text joined
  rw [String.toList_join, List.mem_flatMap]
  rintro ⟨s, hs, hmem⟩
  obtain ⟨piece, hpiece, rfl⟩ := List.mem_map.mp hs
  exact isUnbroken_iff.mp (hall piece hpiece) hmem

end Dissect.Json
