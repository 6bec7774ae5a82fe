/-
# The names of record files

The file of a record is named for its time stamp, its operation and its id.  Ids are of one length and
differ as long as there are no more records than an id has room for (`idOf_inj`), and so the pattern
for the files of an id describes no file of a record with another one (`describes_recordName`).
-/
import Dissect.Proofs.UsableStores

namespace Dissect

open Files (Disk Location)
open Files.Glob (IsOrdinary)

/-! ## 1. Ids -/

namespace Text

theorem length_hexDigits (width n : Nat) : (hexDigits width n).length = width := by
  induction width generalizing n with
  | zero => rfl
  | succ width ih => rw [hexDigits, List.length_append, ih, List.length_singleton]

theorem hexDigits_inj {width n m : Nat} (hn : n < 16 ^ width) (hm : m < 16 ^ width)
    (h : hexDigits width n = hexDigits width m) : n = m := by
  have hdigit : ∀ k l : Fin 16, hexDigit k.val = hexDigit l.val → k = l := by decide
  induction width generalizing n m with
  | zero => omega
  | succ width ih =>
    obtain ⟨hfront, hlast⟩ := List.append_inj' h rfl
    have hquotient := ih (by omega) (by omega) hfront
    have hrest := hdigit ⟨n % 16, Nat.mod_lt _ (by decide)⟩ ⟨m % 16, Nat.mod_lt _ (by decide)⟩
      (List.cons.inj hlast).1
    have hmod : n % 16 = m % 16 := congrArg Fin.val hrest
    omega

end Text

namespace ErrorStore

variable {s : ErrorStore} {d : Disk} {loc : Location} {name : String}

/-- **Ids differ** as long as the numbers have no more digits than an id. -/
theorem idOf_inj {n m : Nat} (hn : n < 16 ^ 16) (hm : m < 16 ^ 16) (h : idOf n = idOf m) : n = m := by
  have hchars := congrArg String.toList h
  rw [idOf_toList, idOf_toList] at hchars
  exact Text.hexDigits_inj hn hm (List.append_cancel_left hchars)

instance (c : Char) : Decidable (IsOrdinary c) := by
  unfold IsOrdinary
  infer_instance

theorem length_idOf (n : Nat) : (idOf n).toList.length = 23 := by
  rw [idOf_toList, List.length_append, Text.length_hexDigits]
  rfl

/-! ## 2. The pattern for the files of an id -/

/-- The end of the names of the files with an id. -/
def endOf (id : String) : List Char := '_' :: (id.toList ++ ".json".toList)

theorem pattern_toList (id : String) : ("*_" ++ id ++ ".json").toList = '*' :: endOf id := by
  simp [endOf]

theorem partsOf_plain (h : Path.IsPlain name) : Path.partsOf name = [name] :=
  congrArg Path.parts (Path.ofText_plain h)

/-- The pattern for an id without a slash is a single component. -/
theorem partsOf_unslashed {id : String} (hid : '/' ∉ id.toList) :
    Path.partsOf ("*_" ++ id ++ ".json") = ["*_" ++ id ++ ".json"] := by
  have hmem : '_' ∈ ("*_" ++ id ++ ".json").toList := by
    rw [pattern_toList]
    exact List.mem_cons_of_mem _ List.mem_cons_self
  have hslash : '/' ∉ ("*_" ++ id ++ ".json").toList := by
    rw [pattern_toList]
    simp [endOf, hid]
  exact partsOf_plain (plain_of_underscore hmem hslash).1

/-- **The names that the pattern for an id of ordinary characters describes** are those that end in
it. -/
theorem describes_ordinary {id : String} (hslash : '/' ∉ id.toList)
    (hid : ∀ c ∈ id.toList, IsOrdinary c) (name : String) :
    describes id name = true ↔ endOf id <:+ name.toList := by
  have hsuffix : ∀ c ∈ ".json".toList, IsOrdinary c := by decide
  unfold describes
  rw [partsOf_unslashed hslash]
  exact Files.Glob.fits_star (pattern_toList _) (List.forall_mem_cons.mpr
    ⟨by decide, List.forall_mem_append.mpr ⟨hid, hsuffix⟩⟩)

theorem slash_not_mem_idOf (n : Nat) : '/' ∉ (idOf n).toList := fun hm =>
  forall_idOf (P := (· ≠ '/')) (by decide) (by decide) n _ hm rfl

theorem idOf_ordinary (n : Nat) : ∀ c ∈ (idOf n).toList, IsOrdinary c :=
  forall_idOf (by decide) (by decide) n

theorem describes_idOf (n : Nat) (name : String) :
    describes (idOf n) name = true ↔ endOf (idOf n) <:+ name.toList :=
  describes_ordinary (slash_not_mem_idOf n) (idOf_ordinary n) name

theorem isInfixOf_stars {cs : List Char} (h : '*' ∉ cs) :
    Text.isInfixOf ['*', '*'] ('*' :: cs) = false := by
  have hnone : ∀ cs : List Char, '*' ∉ cs → Text.isInfixOf ['*', '*'] cs = false := by
    intro cs
    induction cs with
    | nil => exact fun _ => rfl
    | cons c rest ih =>
      intro hcs
      rw [List.mem_cons, not_or] at hcs
      simp [Text.isInfixOf, ih hcs.2, List.isPrefixOf, hcs.1]
  cases cs with
  | nil => rfl
  | cons c rest =>
    have hrest := hnone (c :: rest) h
    rw [List.mem_cons, not_or] at h
    rw [Text.isInfixOf, hrest]
    simp [List.isPrefixOf, h.1]

/-- The ids that the store gives are not refused. -/
theorem not_refused_idOf (n : Nat) : ¬ Refused (idOf n) := by
  unfold Refused
  rw [partsOf_unslashed (slash_not_mem_idOf n), List.any_cons, List.any_nil, Bool.or_false]
  have hid : '*' ∉ (idOf n).toList := fun hmem => (idOf_ordinary n _ hmem).1 rfl
  have hstars : Text.contains ("*_" ++ idOf n ++ ".json") "**" = false := by
    unfold Text.contains
    rw [pattern_toList]
    exact isInfixOf_stars (by simp [endOf, hid])
  rw [hstars, Bool.false_and]
  exact Bool.false_ne_true

theorem recordName_toList (moment : Moment) (operation : String) (n : Nat) :
    (recordName moment operation n).toList =
      (moment.compact ++ "_" ++ operation).toList ++ endOf (idOf n) := by
  simp [recordName, endOf]

/-- A text of the length of an id at whose pattern a record's file is described is the record's id. -/
theorem eq_of_describes {moment : Moment} {operation id : String} {n : Nat}
    (hslash : '/' ∉ id.toList) (hid : ∀ c ∈ id.toList, IsOrdinary c) (hlength : id.toList.length = 23)
    (h : describes id (recordName moment operation n) = true) : idOf n = id := by
  rw [describes_ordinary hslash hid, recordName_toList] at h
  have hends : endOf id <:+ endOf (idOf n) := by
    refine List.suffix_of_suffix_length_le h (List.suffix_append _ _) ?_
    simp only [endOf, List.length_cons, List.length_append, length_idOf, hlength]
    exact Nat.le_refl _
  have heq := hends.eq_of_length (by
    simp only [endOf, List.length_cons, List.length_append, length_idOf, hlength])
  exact (String.toList_inj.mp (List.append_cancel_right (List.cons.inj heq).2)).symm

/-- **The pattern for an id describes the file of a record exactly if it has the id.** -/
theorem describes_recordName {moment : Moment} {operation : String} {n m : Nat} :
    describes (idOf m) (recordName moment operation n) = true ↔ idOf n = idOf m := by
  constructor
  · exact eq_of_describes (slash_not_mem_idOf m) (idOf_ordinary m) (length_idOf m)
  · intro h
    rw [describes_idOf, recordName_toList, h]
    exact List.suffix_append _ _

end ErrorStore

end Dissect
