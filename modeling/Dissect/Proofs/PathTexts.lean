/-
# Paths as texts

A path whose components are plain names is read back from its text, and the names that its text
leads through are its components.  So an operation that is given the text of a path, as every
operation on files is, acts on the location that the path says.
-/
import Dissect.Files.Disk

namespace Dissect

/-! ## 1. Cutting and joining -/

namespace Text

theorem splitChars_of_not_mem {sep : Char} : ∀ {cs : List Char}, sep ∉ cs → splitChars sep cs = [cs]
  | [], _ => rfl
  | c :: rest, h => by
    have hc : c ≠ sep := fun he => h (he ▸ List.mem_cons_self)
    have ih := splitChars_of_not_mem fun hm => h (List.mem_cons_of_mem c hm)
    simp [splitChars, hc, ih]

theorem splitChars_append {sep : Char} (after : List Char) : ∀ {cs : List Char}, sep ∉ cs →
    splitChars sep (cs ++ sep :: after) = cs :: splitChars sep after
  | [], _ => by simp [splitChars]
  | c :: rest, h => by
    have hc : c ≠ sep := fun he => h (he ▸ List.mem_cons_self)
    have ih := splitChars_append after fun hm => h (List.mem_cons_of_mem c hm)
    simp [splitChars, hc, ih]

/-- There is always a piece. -/
theorem splitChars_cons (sep : Char) : ∀ cs : List Char,
    ∃ piece pieces, splitChars sep cs = piece :: pieces
  | [] => ⟨[], [], rfl⟩
  | c :: rest => by
    obtain ⟨piece, pieces, hsplit⟩ := splitChars_cons sep rest
    by_cases hc : c = sep
    · exact ⟨[], splitChars sep rest, by simp [splitChars, hc]⟩
    · exact ⟨c :: piece, pieces, by simp [splitChars, hc, hsplit]⟩

/-- No piece holds the separator. -/
theorem not_mem_of_mem_splitChars {sep : Char} : ∀ {cs piece : List Char},
    piece ∈ splitChars sep cs → sep ∉ piece
  | [], piece, hp => by
    rw [splitChars, List.mem_singleton] at hp
    simp [hp]
  | c :: rest, piece, hp => by
    unfold splitChars at hp
    split at hp
    · rcases List.mem_cons.mp hp with rfl | hp
      · simp
      · exact not_mem_of_mem_splitChars hp
    · rename_i hc
      split at hp
      · rw [List.mem_singleton.mp hp]
        simpa using Ne.symm hc
      · rename_i first others hsplit
        rcases List.mem_cons.mp hp with rfl | hp
        · have hfirst : first ∈ splitChars sep rest := by
            rw [hsplit]
            exact List.mem_cons_self
          intro hm
          rcases List.mem_cons.mp hm with he | hm
          · exact hc he.symm
          · exact not_mem_of_mem_splitChars hfirst hm
        · exact not_mem_of_mem_splitChars (by rw [hsplit]; exact List.mem_cons_of_mem _ hp)

/-- Joining names and cutting the text again gives the names. -/
theorem splitAt_join : ∀ {parts : List String}, parts ≠ [] → (∀ part ∈ parts, '/' ∉ part.toList) →
    splitAt (join "/" parts) '/' = parts
  | [], hne, _ => absurd rfl hne
  | [part], _, h => by
    have hp := h part List.mem_cons_self
    simp [join, splitAt, splitChars_of_not_mem hp]
  | part :: next :: rest, _, h => by
    have hp := h part List.mem_cons_self
    have ih := splitAt_join (List.cons_ne_nil next rest) fun p hm => h p (List.mem_cons_of_mem _ hm)
    have hjoin : (join "/" (part :: next :: rest)).toList =
        part.toList ++ '/' :: (join "/" (next :: rest)).toList := by
      simp only [join, String.intercalate_cons_cons, String.toList_append, List.append_assoc]
      rfl
    unfold splitAt at ih ⊢
    rw [hjoin, splitChars_append _ hp, List.map_cons, ih, String.ofList_toList]

end Text

/-! ## 2. Plain names -/

/-- A name that can stand between two slashes, and that names something of its own. -/
def Path.IsPlain (name : String) : Prop := name ≠ "" ∧ name ≠ "." ∧ '/' ∉ name.toList

/-- The components of the path are plain names. -/
def Path.Proper (p : Path) : Prop := ∀ part ∈ p.parts, Path.IsPlain part

instance (name : String) : Decidable (Path.IsPlain name) := inferInstanceAs (Decidable (_ ∧ _))

instance (p : Path) : Decidable p.Proper := inferInstanceAs (Decidable (∀ part ∈ p.parts, _))

namespace Path

theorem toList_ne_nil {name : String} (h : name ≠ "") : name.toList ≠ [] := fun he =>
  h (String.toList_inj.mp he)

/-- A text read as a path has proper components. -/
theorem ofText_proper (s : String) : (ofText s).Proper := by
  intro part hmem
  obtain ⟨hpiece, hkeep⟩ := List.mem_filter.mp hmem
  simp only [bne_iff_ne, ne_eq, Bool.and_eq_true] at hkeep
  obtain ⟨piece, hp, rfl⟩ := List.mem_map.mp hpiece
  refine ⟨hkeep.1, hkeep.2, ?_⟩
  rw [String.toList_ofList]
  exact Text.not_mem_of_mem_splitChars hp

/-- A plain name read as a path is that name. -/
theorem ofText_plain {name : String} (h : IsPlain name) : ofText name = ⟨.relative, [name]⟩ := by
  obtain ⟨hne, hdot, hslash⟩ := h
  have hanchor : anchorOf name = .relative := by
    unfold anchorOf
    cases hl : name.toList with
    | nil => rfl
    | cons c rest =>
      have hc : c ≠ '/' := fun he => hslash (by rw [hl, he]; exact List.mem_cons_self)
      simp [hc]
  have hparts : partsOf name = [name] := by
    simp [partsOf, Text.splitAt, Text.splitChars_of_not_mem hslash, hne, hdot]
  rw [ofText, hanchor, hparts]

theorem child_plain (base : Path) {name : String} (h : IsPlain name) :
    base.child name = ⟨base.anchor, base.parts ++ [name]⟩ := by
  rw [child, ofText_plain h]
  rfl

theorem Proper.child {base : Path} (hb : base.Proper) {name : String} (h : IsPlain name) :
    (base.child name).Proper := by
  rw [child_plain base h]
  intro part hmem
  rcases List.mem_append.mp hmem with hold | hnew
  · exact hb part hold
  · rw [List.mem_singleton.mp hnew]
    exact h

/-! ## 3. The text of a path -/

theorem text_of_parts {p : Path} (hne : p.parts ≠ []) :
    p.text = p.anchor.text ++ Text.join "/" p.parts := by
  obtain ⟨anchor, parts⟩ := p
  cases parts with
  | nil => exact absurd rfl hne
  | cons => cases anchor <;> rfl

/-- The joined text ends with the last name. -/
theorem toList_join : ∀ {parts : List String} (hne : parts ≠ []),
    ∃ front, (Text.join "/" parts).toList = front ++ (parts.getLast hne).toList
  | [], hne => absurd rfl hne
  | [part], _ => ⟨[], by simp [Text.join]⟩
  | part :: next :: rest, hne => by
    obtain ⟨front, hfront⟩ := toList_join (List.cons_ne_nil next rest)
    refine ⟨part.toList ++ '/' :: front, ?_⟩
    rw [List.getLast_cons (List.cons_ne_nil next rest), List.append_assoc, List.cons_append,
      ← hfront]
    simp only [Text.join, String.intercalate_cons_cons, String.toList_append, List.append_assoc]
    rfl

/-- The text of a proper path with components ends with its last component. -/
theorem toList_text {p : Path} (hne : p.parts ≠ []) :
    ∃ front, p.text.toList = front ++ (p.parts.getLast hne).toList := by
  obtain ⟨front, hfront⟩ := toList_join hne
  exact ⟨p.anchor.text.toList ++ front, by
    rw [text_of_parts hne, String.toList_append, hfront, List.append_assoc]⟩

/-- The last character of a proper path with components is no slash. -/
theorem getLast?_text_ne {p : Path} (h : p.Proper) (hne : p.parts ≠ []) :
    p.text.toList.getLast? ≠ some '/' := by
  obtain ⟨front, hfront⟩ := toList_text hne
  obtain ⟨hlast, -, hslash⟩ := h _ (List.getLast_mem hne)
  rw [hfront, List.getLast?_append]
  cases hl : (p.parts.getLast hne).toList.getLast? with
  | none => exact absurd (List.getLast?_eq_none_iff.mp hl) (toList_ne_nil hlast)
  | some c =>
    intro he
    rw [Option.some_or] at he
    exact hslash (List.mem_of_getLast? (hl.trans he))

theorem endsWith_text {p : Path} (h : p.Proper) (hne : p.parts ≠ []) :
    Text.endsWith p.text "/" = false := by
  cases he : Text.endsWith p.text "/" with
  | false => rfl
  | true =>
    obtain ⟨front, hfront⟩ := List.isSuffixOf_iff_suffix.mp he
    refine absurd ?_ (getLast?_text_ne h hne)
    rw [← hfront]
    exact List.getLast?_concat

/-- The first character of the joined text is the first of the first name. -/
theorem head?_join {parts : List String} (hne : parts ≠ []) (h : ∀ part ∈ parts, IsPlain part) :
    ∃ c rest, (Text.join "/" parts).toList = c :: rest ∧ c ≠ '/' := by
  cases parts with
  | nil => exact absurd rfl hne
  | cons part rest =>
    obtain ⟨hp, -, hslash⟩ := h part List.mem_cons_self
    cases hl : part.toList with
    | nil => exact absurd hl (toList_ne_nil hp)
    | cons c more =>
      have hc : c ≠ '/' := fun he => hslash (by rw [hl, he]; exact List.mem_cons_self)
      cases rest with
      | nil => exact ⟨c, more, by simp [Text.join, hl], hc⟩
      | cons next others =>
        refine ⟨c, more ++ ("/" ++ Text.join "/" (next :: others)).toList, ?_, hc⟩
        simp [Text.join, hl]

/-- The characters of a proper path with components: those of the anchor, and none of the slashes
that follow belongs to the anchor. -/
theorem takeWhile_text {p : Path} (h : p.Proper) (hne : p.parts ≠ []) :
    p.text.toList.takeWhile (· = '/') = p.anchor.text.toList := by
  obtain ⟨c, rest, hjoin, hc⟩ := head?_join hne h
  rw [text_of_parts hne, String.toList_append, hjoin]
  cases p.anchor <;> simp [Anchor.text, hc]

theorem anchorOf_text {p : Path} (h : p.Proper) (hne : p.parts ≠ []) :
    anchorOf p.text = p.anchor := by
  unfold anchorOf
  rw [takeWhile_text h hne]
  cases p.anchor <;> rfl

/-- The pieces between the slashes of the text, without the empty ones, are the components. -/
theorem filter_splitAt_text {p : Path} (h : p.Proper) (hne : p.parts ≠ []) :
    (Text.splitAt p.text '/').filter (· != "") = p.parts := by
  have hjoin := Text.splitAt_join hne fun part hm => (h part hm).2.2
  have hall : p.parts.filter (· != "") = p.parts :=
    List.filter_eq_self.mpr fun part hm => by simpa using (h part hm).1
  rw [text_of_parts hne]
  unfold Text.splitAt at hjoin ⊢
  rw [String.toList_append]
  cases p.anchor with
  | relative =>
    rw [show Anchor.relative.text.toList = [] from rfl, List.nil_append, hjoin, hall]
  | root =>
    rw [show Anchor.root.text.toList = ['/'] from rfl, List.singleton_append, Text.splitChars,
      if_pos rfl, List.map_cons, hjoin]
    exact hall
  | doubleRoot =>
    rw [show Anchor.doubleRoot.text.toList = ['/', '/'] from rfl, List.cons_append,
      List.singleton_append, Text.splitChars, if_pos rfl, Text.splitChars, if_pos rfl,
      List.map_cons, List.map_cons, hjoin]
    exact hall

/-- **A proper path is read back from its text.** -/
theorem ofText_text {p : Path} (h : p.Proper) (hne : p.parts ≠ []) : ofText p.text = p := by
  have hdots : p.parts.filter (· != ".") = p.parts :=
    List.filter_eq_self.mpr fun part hm => by simpa using (h part hm).2.1
  have hparts : partsOf p.text = p.parts := by
    rw [← hdots, ← filter_splitAt_text h hne, List.filter_filter]
    exact List.filter_congr fun part _ => Bool.and_comm _ _
  rw [ofText, anchorOf_text h hne, hparts]

end Path

namespace Files

/-- **The names that the text of a proper path leads through are its components.** -/
theorem rawNames_text {p : Path} (h : p.Proper) (hne : p.parts ≠ []) :
    rawNames p.text = p.parts := by
  unfold rawNames
  rw [Path.endsWith_text h hne, Path.filter_splitAt_text h hne]
  rfl

/-- A path starts where its anchor says. -/
theorem rawStart_text {p : Path} (h : p.Proper) (hne : p.parts ≠ []) (cwd : Location) :
    rawStart cwd p.text = if p.isAbsolute then [] else cwd := by
  obtain ⟨c, rest, hjoin, hc⟩ := Path.head?_join hne h
  have hstart : Text.startsWith p.text "/" = p.isAbsolute := by
    rw [Path.text_of_parts hne]
    unfold Text.startsWith Path.isAbsolute
    rw [String.toList_append, hjoin]
    cases p.anchor with
    | relative =>
      show ['/'].isPrefixOf (c :: rest) = false
      simp [List.isPrefixOf, Ne.symm hc]
    | root => rfl
    | doubleRoot => rfl
  unfold rawStart
  rw [hstart]

end Files

end Dissect
