/-
# Diagnostics read back

A value made of dictionaries whose keys are texts, of lists, texts, truth values, whole numbers and
nothing has a document, and the document of the value stands for it again
(`Value.Portable.carried`).  Nesting is limited by what the reader takes, whole numbers by their
digits, and texts by the one thing that reading changes, the two halves of a pair of code units side
by side.

So a diagnostic with such details is read back from its JSON text as the dictionary that it is,
whatever the margin of the text, if only the margin can be made (`Diagnostic.json_reads_back`).
-/
import Dissect.Diagnostic
import Dissect.Json.Number
import Dissect.Proofs.ReadDocuments
import Dissect.Proofs.WholeDocuments

namespace Dissect

open Text (Unpaired)

/-! ## 1. Values that documents carry -/

namespace Value

/-- The document is that of the value, is read back as it is where arrays and objects can still be
nested to the given depth, and stands for the value. -/
structure CarriedBy (depth : Nat) (v : Value) (j : Json) : Prop where
  document : v.document = .ok j
  readable : Json.Readable depth j
  unchanged : j.reread = j
  value : j.value = v

/-- The value is made of dictionaries whose keys are different texts, of lists, texts, truth values,
whole numbers that are not too long, and nothing, nested to no more than the given depth.  No text
in it has the two halves of a pair of code units side by side. -/
inductive Portable : Nat → Value → Prop where
  | none {depth : Nat} : Portable depth .none
  | bool {depth : Nat} (b : Bool) : Portable depth (.bool b)
  | int {depth : Nat} {n : Int} (short : n.natAbs < 10 ^ Json.maxDigits) : Portable depth (.int n)
  | str {depth : Nat} {s : String} (unpaired : Unpaired s) : Portable depth (.str s)
  | list {depth : Nat} {items : List Value} (all : ∀ item ∈ items, Portable depth item) :
      Portable (depth + 1) (.list items)
  | dict {depth : Nat} (members : List (String × Value))
      (unpaired : ∀ key ∈ members.map Prod.fst, Unpaired key)
      (distinct : (members.map Prod.fst).Nodup)
      (all : ∀ member ∈ members, Portable depth member.2) :
      Portable (depth + 1) (.dict (members.map fun member => (.str member.1, member.2)))

variable {depth : Nat}

/-- Items that are carried one by one are carried by the array of their documents. -/
theorem carried_list {items : List Value} (h : ∀ item ∈ items, ∃ j, CarriedBy depth item j) :
    ∃ j, CarriedBy (depth + 1) (.list items) j := by
  suffices hitems : ∃ js, documents items = .ok js ∧ (∀ j ∈ js, Json.Readable depth j) ∧
      js.map Json.reread = js ∧ Json.itemValues js = items by
    obtain ⟨js, hdocuments, hreadable, hunchanged, hvalues⟩ := hitems
    refine ⟨.arr js, ?_, .arr hreadable, ?_, ?_⟩
    · rw [document, hdocuments]
      rfl
    · rw [Json.reread, Json.rereadItems_eq, hunchanged]
    · rw [Json.value, hvalues]
  induction items with
  | nil => exact ⟨[], rfl, by simp, rfl, rfl⟩
  | cons item rest ih =>
    obtain ⟨j, hj⟩ := h item List.mem_cons_self
    obtain ⟨js, hdocuments, hreadable, hunchanged, hvalues⟩ :=
      ih fun other hother => h other (List.mem_cons_of_mem _ hother)
    refine ⟨j :: js, ?_, List.forall_mem_cons.mpr ⟨hj.readable, hreadable⟩, ?_, ?_⟩
    · rw [documents, hj.document, hdocuments]
      rfl
    · rw [List.map_cons, hj.unchanged, hunchanged]
    · rw [Json.itemValues, hj.value, hvalues]

/-- Values under different texts are carried by the object of their documents. -/
theorem carried_dict {members : List (String × Value)}
    (unpaired : ∀ key ∈ members.map Prod.fst, Unpaired key)
    (distinct : (members.map Prod.fst).Nodup)
    (h : ∀ member ∈ members, ∃ j, CarriedBy depth member.2 j) :
    ∃ j, CarriedBy (depth + 1) (.dict (members.map fun member => (.str member.1, member.2))) j := by
  suffices hmembers : ∃ js, memberDocuments (members.map fun member => (.str member.1, member.2)) =
        .ok js ∧ js.map Prod.fst = members.map Prod.fst ∧
      (∀ j ∈ js, Json.Readable depth j.2) ∧ js.map (fun j => (j.1, j.2.reread)) = js ∧
      Json.memberValues js = members.map fun member => (.str member.1, member.2) by
    obtain ⟨js, hdocuments, hkeys, hreadable, hunchanged, hvalues⟩ := hmembers
    refine ⟨.obj js, ?_, .obj hreadable, ?_, ?_⟩
    · rw [document, hdocuments]
      rfl
    · have hpaired : ∀ j ∈ js, Json.pairedText j.1 = j.1 := fun j hj =>
        (unpaired j.1 (hkeys ▸ List.mem_map_of_mem hj)).pairedText
      rw [Json.reread, Json.rereadMembers_eq hpaired (by simpa [hkeys] using distinct), hunchanged]
      rfl
    · rw [Json.value, hvalues]
  clear unpaired distinct
  induction members with
  | nil => exact ⟨[], rfl, rfl, by simp, rfl, rfl⟩
  | cons member rest ih =>
    obtain ⟨j, hj⟩ := h member List.mem_cons_self
    obtain ⟨js, hdocuments, hkeys, hreadable, hunchanged, hvalues⟩ :=
      ih fun other hother => h other (List.mem_cons_of_mem _ hother)
    refine ⟨(member.1, j) :: js, ?_, ?_, List.forall_mem_cons.mpr ⟨hj.readable, hreadable⟩, ?_, ?_⟩
    · rw [List.map_cons, memberDocuments, hj.document, hdocuments]
      rfl
    · rw [List.map_cons, List.map_cons, hkeys]
    · rw [List.map_cons, hj.unchanged, hunchanged]
    · rw [Json.memberValues, hj.value, hvalues, List.map_cons]

/-- **A portable value is carried by its document.** -/
theorem Portable.carried {v : Value} (h : Portable depth v) : ∃ j, CarriedBy depth v j := by
  induction h with
  | none => exact ⟨.null, rfl, .null, rfl, rfl⟩
  | bool b => exact ⟨.bool b, rfl, .bool b, rfl, rfl⟩
  | @int depth n short =>
    have hwritable : isWritable (.int n) = true := by
      rw [isWritable, Json.tooLong_eq]
      exact decide_eq_true short
    exact ⟨.int n, by rw [document, if_pos hwritable], .int short, rfl, rfl⟩
  | @str depth s unpaired =>
    exact ⟨.str s, rfl, .str s, by rw [Json.reread, unpaired.pairedText], rfl⟩
  | list _ ih => exact carried_list ih
  | dict _ unpaired distinct _ ih => exact carried_dict unpaired distinct ih

end Value

/-! ## 2. Diagnostics -/

namespace Diagnostic

variable {d : Diagnostic} {indent : Option Int}

/-- No text of the diagnostic has the two halves of a pair of code units side by side, and its
details are portable. -/
structure Portable (d : Diagnostic) : Prop where
  message : Unpaired d.message
  reason : ∀ text ∈ d.reason, Unpaired text
  suggestions : ∀ text ∈ d.suggestions, Unpaired text
  details : Value.Portable (Json.maxNesting - 1) (.dict d.details)

/-- The code of a diagnostic is a text of characters. -/
theorem unpaired_code (code : ErrorCode) : Unpaired code.text :=
  Text.IsWhole.unpaired (by cases code <;> decide +kernel)

/-- **The dictionary of a portable diagnostic is portable.** -/
theorem Portable.dictionary (h : d.Portable) : Value.Portable Json.maxNesting d.dictionary := by
  have hreason : Value.Portable (Json.maxNesting - 1) (.ofText? d.reason) := by
    have hall := h.reason
    cases hd : d.reason with
    | none => exact .none
    | some text => exact .str (hall text hd)
  have hsuggestions : Value.Portable (Json.maxNesting - 1) (.list (d.suggestions.map .str)) := by
    refine .list fun item hitem => ?_
    obtain ⟨text, htext, rfl⟩ := List.mem_map.mp hitem
    exact .str (h.suggestions text htext)
  let members : List (String × Value) :=
    [("error", .str d.code.text), ("message", .str d.message), ("reason", .ofText? d.reason),
      ("suggestions", .list (d.suggestions.map .str)), ("debug_info", .dict d.details)]
  have hkeys : members.map Prod.fst =
      ["error", "message", "reason", "suggestions", "debug_info"] := rfl
  refine Value.Portable.dict members ?_ ?_ ?_
  · rw [hkeys]
    decide +kernel
  · rw [hkeys]
    decide
  · simp only [members, List.forall_mem_cons]
    exact ⟨.str (unpaired_code d.code), .str h.message, hreason, hsuggestions, h.details, by simp⟩

/-- A margin can be made if its width is a machine word and there is room for it. -/
theorem marginFault?_eq_none {width : Int} (hlow : -2 ^ 63 ≤ width) (hroom : width ≤ maxMargin) :
    marginFault? width = none := by
  have hmargin : maxMargin = 2 ^ 35 := rfl
  have hword : width < 2 ^ 63 := by omega
  have hfits : Value.fitsWord width = true := by
    simp only [Value.fitsWord, Bool.and_eq_true, decide_eq_true_eq]
    exact ⟨hlow, hword⟩
  simp [marginFault?, hfits, Int.not_lt.mpr hroom]

/-- A width that is no machine word is refused. -/
theorem marginFault?_of_not_fits {width : Int} (h : width < -2 ^ 63 ∨ 2 ^ 63 ≤ width) :
    marginFault? width =
      some (.ofText .overflowError "cannot fit 'int' into an index-sized integer") := by
  have hfits : Value.fitsWord width = false := by
    simp only [Value.fitsWord, Bool.and_eq_false_iff, decide_eq_false_iff_not]
    exact h.imp Int.not_le.mpr Int.not_lt.mpr
  simp [marginFault?, hfits]

/-- **A portable diagnostic is read back from its text.**  With any margin for which there is room,
and without one, the text is read as the dictionary of the diagnostic, in which the margin does not
occur.  A margin to the left of the line is none, whatever its width, as long as this is a machine
word.  Any other width is refused before anything is written.

The characters from U+10D800 to U+10DFFF stand for single halves of pairs of code units in all of
these texts, and are not told of as characters of their own. -/
theorem json_reads_back (h : d.Portable) (indent : Option Int) :
    ((∀ width ∈ indent, -2 ^ 63 ≤ width ∧ width ≤ maxMargin) →
      ∃ text document, d.json indent = .ok text ∧ Json.parse text = .ok document ∧
        document.value = d.dictionary) ∧
    ∀ width ∈ indent, width < -2 ^ 63 ∨ 2 ^ 63 ≤ width →
      d.json indent =
        .error (.ofText .overflowError "cannot fit 'int' into an index-sized integer") := by
  constructor
  · intro hroom
    have hmargin : indent.bind marginFault? = none :=
      Option.bind_eq_none_iff.mpr fun width hwidth =>
        marginFault?_eq_none (hroom width hwidth).1 (hroom width hwidth).2
    obtain ⟨document, hdocument, hreadable, hunchanged, hvalue⟩ := h.dictionary.carried
    refine ⟨document.text indent, document, ?_, ?_, hvalue⟩
    · rw [json, hmargin, hdocument]
      rfl
    · rw [Json.parse_text indent hreadable, hunchanged]
  · rintro width rfl hwidth
    rw [json, Option.bind_some, marginFault?_of_not_fits hwidth]
    rfl

/-- A diagnostic with escapes, with characters beyond the first plane and with details inside
details, at margins of all kinds and at the first width that is refused. -/
theorem json_reads_back_nested :
    let d : Diagnostic :=
      { code := .toolAccessDenied, message := "\"\\\n\t\u0001 \u007f", reason := some "\u00e9 𝄞"
        suggestions := ["", "/"]
        details := [(.str "", .list [.int (-10), .none, .bool true, .dict []]),
          (.str "😀", .dict [(.str "depth", .list [])])] }
    (∀ indent ∈ [none, some 2, some 0, some (-7)], ∃ text document, d.json indent = .ok text ∧
      Json.parse text = .ok document ∧ document.value = d.dictionary) ∧
    d.json (some (-2 ^ 63 - 1)) =
      .error (.ofText .overflowError "cannot fit 'int' into an index-sized integer") := by
  intro d
  have hlist : Value.Portable 984 (.list [.int (-10), .none, .bool true, .dict []]) := by
    have hshort : (-10 : Int).natAbs < 10 ^ Json.maxDigits :=
      Nat.lt_of_lt_of_le (by decide : 10 < 10 ^ 2) (Nat.pow_le_pow_right (by decide) (by decide))
    refine .list (List.forall_mem_cons.mpr ⟨.int hshort, List.forall_mem_cons.mpr ⟨.none,
      List.forall_mem_cons.mpr ⟨.bool true, List.forall_mem_cons.mpr ⟨?_, by simp⟩⟩⟩⟩)
    exact .dict [] (by simp) (by simp) (by simp)
  have hdict : Value.Portable 984 (.dict [(.str "depth", .list [])]) :=
    .dict [("depth", .list [])] (by decide +kernel) (by decide)
      (by simpa using .list (by simp))
  have hd : d.Portable :=
    { message := by decide +kernel
      reason := by decide +kernel
      suggestions := by decide +kernel
      details := .dict [("", .list [.int (-10), .none, .bool true, .dict []]),
          ("😀", .dict [(.str "depth", .list [])])]
        (by decide +kernel) (by decide)
        (List.forall_mem_cons.mpr ⟨hlist, List.forall_mem_cons.mpr ⟨hdict, by simp⟩⟩) }
  constructor
  · intro indent hindent
    refine (json_reads_back hd indent).1 ?_
    revert indent
    decide
  · exact (json_reads_back hd _).2 _ rfl (.inl (by decide))

/-- A margin whose width is no machine word keeps every diagnostic from being written, though a
margin to the left of the line would be none. -/
theorem wide_margin_is_refused :
    ¬ ∀ d : Diagnostic, d.Portable → ∀ indent : Option Int, ∃ text document,
      d.json indent = .ok text ∧ Json.parse text = .ok document ∧
        document.value = d.dictionary := by
  intro h
  let d : Diagnostic := { code := .toolAccessDenied, message := "Illegal access" }
  have hd : d.Portable :=
    { message := by decide +kernel
      reason := by simp [d]
      suggestions := by simp [d]
      details := .dict [] (by simp) (by simp) (by simp) }
  obtain ⟨text, document, htext, -⟩ := h d hd (some (-10 ^ 30))
  rw [json, Option.bind_some, marginFault?_of_not_fits (.inl (by decide))] at htext
  cases htext

end Diagnostic

end Dissect
