/-
# Lines of a settings file

An assignment can be written in many ways: bare or in quotes, and with blanks around the line, the
key and the value (`Written`).  The reader takes exactly these lines for assignments, and takes from
each the key and the value that were written (`assigned?_ofChars_iff`).

The other lines fall apart as the format says.  Blank lines and comments say nothing
(`ofChars_eq_nothing_iff`), and a line is malformed if it is neither and has no `=`
(`ofChars_eq_malformed_iff`).  What remains are lines with nothing but blanks before their `=`.
-/
import Dissect.Proofs.TrimmedTexts
import Dissect.Settings.File

namespace Dissect.Settings

open Text (Blanks Trimmed isBlank trim trimStart trimEnd)

variable {cs left right line : List Char}

/-! ## 1. How an assignment is written -/

/-- The text stands on one line. -/
def OneLine (cs : List Char) : Prop := '\n' ∉ cs ∧ '\r' ∉ cs

instance (cs : List Char) : Decidable (OneLine cs) :=
  inferInstanceAs (Decidable ('\n' ∉ cs ∧ '\r' ∉ cs))

theorem oneLine_append (first second : List Char) :
    OneLine (first ++ second) ↔ OneLine first ∧ OneLine second := by
  simp only [OneLine, List.mem_append, not_or]
  constructor
  · rintro ⟨⟨hlf, hlf'⟩, hcr, hcr'⟩
    exact ⟨⟨hlf, hcr⟩, hlf', hcr'⟩
  · rintro ⟨⟨hlf, hcr⟩, hlf', hcr'⟩
    exact ⟨⟨hlf, hlf'⟩, hcr, hcr'⟩

theorem oneLine_cons (c : Char) (cs : List Char) :
    OneLine (c :: cs) ↔ (c ≠ '\n' ∧ c ≠ '\r') ∧ OneLine cs := by
  have hone : OneLine [c] ↔ c ≠ '\n' ∧ c ≠ '\r' := by
    simp [OneLine, eq_comm (b := c)]
  rw [← hone]
  exact oneLine_append [c] cs

/-- Blanks within a line. -/
structure Gap where
  chars : List Char
  blanks : Blanks chars
  oneLine : OneLine chars

/-- No blanks. -/
def Gap.none : Gap := ⟨[], Blanks.nil, by simp [OneLine]⟩

/-- A key, and the value it gets. -/
structure Assignment where
  key : List Char
  value : List Char
  key_ne_nil : key ≠ []
  trimmed : Trimmed key
  undivided : '=' ∉ key
  uncommented : key.head? ≠ some '#'
  key_oneLine : OneLine key
  value_oneLine : OneLine value

/-- The key and the value as a pair. -/
def Assignment.pair (a : Assignment) : String × String :=
  (String.ofList a.key, String.ofList a.value)

/-- The same quote stands at both ends. -/
def Enclosed (cs : List Char) : Prop :=
  ∃ quote inner, (quote = '\'' ∨ quote = '"') ∧ cs = quote :: (inner ++ [quote])

/-- How a value is written. -/
inductive Style where
  | bare
  | single
  | double

/-- The written form of a value. -/
def Style.write : Style → List Char → List Char
  | .bare, value => value
  | .single, value => '\'' :: (value ++ ['\''])
  | .double, value => '"' :: (value ++ ['"'])

/-- A value stands bare only if neither blanks nor quotes around it would be taken away. -/
def Style.Fits : Style → List Char → Prop
  | .bare, value => Trimmed value ∧ ¬Enclosed value
  | .single, _ => True
  | .double, _ => True

/-- A line on which an assignment is written. -/
structure Written where
  assignment : Assignment
  style : Style
  fits : style.Fits assignment.value
  before : Gap
  afterKey : Gap
  beforeValue : Gap
  after : Gap

namespace Written

/-- What stands before the `=`. -/
def front (w : Written) : List Char := w.before.chars ++ w.assignment.key ++ w.afterKey.chars

/-- What stands behind the `=`. -/
def back (w : Written) : List Char :=
  w.beforeValue.chars ++ w.style.write w.assignment.value ++ w.after.chars

/-- The characters of the line. -/
def chars (w : Written) : List Char := w.front ++ '=' :: w.back

end Written

/-! ## 2. Quotes -/

theorem unquote_enclosed {quote : Char} {inner : List Char} (h : quote = '\'' ∨ quote = '"') :
    unquote (quote :: (inner ++ [quote])) = inner := by
  obtain ⟨second, rest, hsecond⟩ : ∃ second rest, inner ++ [quote] = second :: rest := by
    cases inner with
    | nil => exact ⟨quote, [], rfl⟩
    | cons c rest => exact ⟨c, rest ++ [quote], rfl⟩
  have hlast : (inner ++ [quote]).getLast? = some quote := List.getLast?_concat
  rw [hsecond, unquote, ← hsecond]
  simp [h, hlast]

/-- Only a text between equal quotes loses anything. -/
theorem unquote_of_not_enclosed (h : ¬Enclosed cs) : unquote cs = cs := by
  unfold unquote
  split
  case h_1 first second rest =>
    refine if_neg fun hquoted => h ?_
    obtain ⟨hfirst, hlast⟩ : (first = '\'' ∨ first = '"') ∧
        (second :: rest).getLast? = some first := by simpa using hquoted
    obtain ⟨inner, hinner⟩ := List.getLast?_eq_some_iff.mp hlast
    exact ⟨first, inner, hfirst, by rw [hinner]⟩
  case h_2 => rfl

namespace Style

variable {style : Style} {value : List Char}

/-- A written value is read as it was. -/
theorem unquote_write (h : style.Fits value) : unquote (style.write value) = value := by
  cases style with
  | bare => exact unquote_of_not_enclosed h.2
  | single => exact unquote_enclosed (Or.inl rfl)
  | double => exact unquote_enclosed (Or.inr rfl)

theorem trimmed_write (h : style.Fits value) : Trimmed (style.write value) := by
  have hquoted {quote : Char} (hq : isBlank quote = false) :
      Trimmed (quote :: (value ++ [quote])) := by
    constructor
    · intro c hc
      obtain rfl : quote = c := Option.some.inj hc
      exact hq
    · intro c hc
      rw [← List.cons_append, List.getLast?_concat] at hc
      obtain rfl : quote = c := Option.some.inj hc
      exact hq
  cases style with
  | bare => exact h.1
  | single => exact hquoted (by decide)
  | double => exact hquoted (by decide)

/-- Whatever stands between blanks is the written form of some value. -/
theorem exists_write (h : Trimmed cs) : ∃ style : Style, ∃ value, style.Fits value ∧
    cs = style.write value := by
  by_cases henclosed : Enclosed cs
  · obtain ⟨quote, inner, rfl | rfl, hcs⟩ := henclosed
    · exact ⟨.single, inner, trivial, hcs⟩
    · exact ⟨.double, inner, trivial, hcs⟩
  · exact ⟨.bare, cs, ⟨h, henclosed⟩, rfl⟩

theorem oneLine_write (h : OneLine (style.write value)) : OneLine value := by
  cases style with
  | bare => exact h
  | single => exact ((oneLine_append _ _).mp ((oneLine_cons _ _).mp h).2).1
  | double => exact ((oneLine_append _ _).mp ((oneLine_cons _ _).mp h).2).1

end Style

/-! ## 3. What the reader makes of a line -/

/-- The first character that is no blank is a `#`. -/
def Comment (cs : List Char) : Prop := (trimStart cs).head? = some '#'

instance (cs : List Char) : Decidable (Comment cs) :=
  inferInstanceAs (Decidable (_ = some '#'))

theorem comment_append_cons {c : Char} (hc : isBlank c = false) :
    Comment (left ++ c :: right) ↔ Comment left ∨ Blanks left ∧ c = '#' := by
  unfold Comment
  rw [Text.trimStart_append_cons hc]
  cases h : trimStart left with
  | nil =>
    have hblanks : Blanks left := Text.trim_eq_nil_iff.mp (by simp [trim, h, trimEnd])
    simp [hblanks]
  | cons d rest =>
    have hblanks : ¬Blanks left := by
      intro hb
      have hnil := Text.trimStart_of_blanks hb []
      rw [List.append_nil, h] at hnil
      simp [trimStart] at hnil
    simp [hblanks]

/-- Trimming the end does not hide the first character. -/
theorem head?_trim (h : ¬Blanks cs) : (trim cs).head? = (trimStart cs).head? := by
  obtain ⟨gap, hgap, hstart⟩ := Text.trimEnd_split (trimStart cs)
  obtain ⟨c, rest, htrim⟩ : ∃ c rest, trimEnd (trimStart cs) = c :: rest :=
    List.exists_cons_of_ne_nil fun hnil => h (Text.trim_eq_nil_iff.mp hnil)
  rw [htrim] at hstart
  rw [trim, htrim, hstart]
  rfl

/-- A text is cut where the character first stands. -/
theorem cutChars_divided {sep : Char} (h : sep ∉ left) :
    Text.cutChars sep (left ++ sep :: right) = some (left, right) := by
  induction left with
  | nil => simp [Text.cutChars]
  | cons c rest ih =>
    obtain ⟨hc, hrest⟩ : sep ≠ c ∧ sep ∉ rest := by simpa using h
    simp [Text.cutChars, hc.symm, ih hrest]

theorem cutChars_undivided {sep : Char} (h : sep ∉ cs) : Text.cutChars sep cs = none := by
  induction cs with
  | nil => rfl
  | cons c rest ih =>
    obtain ⟨hc, hrest⟩ : sep ≠ c ∧ sep ∉ rest := by simpa using h
    simp [Text.cutChars, hc.symm, ih hrest]

/-- What a trimmed line says that is neither empty nor a comment. -/
theorem ofChars_of_content (hblank : ¬Blanks line) (hcomment : ¬Comment line) :
    Line.ofChars line =
      match Text.cutChars '=' (trim line) with
      | none => .malformed
      | some (key, value) => .assignment (trim key) (unquote (trim value)) := by
  have hhead : (trim line).head? ≠ some '#' := by rwa [head?_trim hblank]
  have hne : trim line ≠ [] := fun hnil => hblank (Text.trim_eq_nil_iff.mp hnil)
  unfold Line.ofChars
  split
  case h_1 h => exact absurd h hne
  case h_2 h => exact absurd (by rw [h]; rfl) hhead
  case h_3 => rfl

/-- **A line with a `=` assigns** what follows its first `=` to what precedes it, unless it is a
comment. -/
theorem ofChars_divided (h : '=' ∉ left) (hcomment : ¬Comment left) :
    Line.ofChars (left ++ '=' :: right) = .assignment (trim left) (unquote (trim right)) := by
  have hequals : isBlank '=' = false := by decide
  have hblank : ¬Blanks (left ++ '=' :: right) :=
    fun hb => absurd (hb '=' (by simp)) (by simp [hequals])
  have hplain : ¬Comment (left ++ '=' :: right) := by
    rw [comment_append_cons hequals]
    simp [hcomment]
  have hstart : '=' ∉ trimStart left := by
    obtain ⟨gap, -, hleft⟩ := Text.trimStart_split left
    intro hmem
    exact h (hleft ▸ List.mem_append_right gap hmem)
  rw [ofChars_of_content hblank hplain, Text.trim_append_cons hequals, cutChars_divided hstart]
  simp only [Text.trim_trimStart, Text.trim_trimEnd]

/-- A line without a `=` that is neither blank nor a comment is malformed. -/
theorem ofChars_undivided (h : '=' ∉ line) (hblank : ¬Blanks line) (hcomment : ¬Comment line) :
    Line.ofChars line = .malformed := by
  have htrim : '=' ∉ trim line := by
    obtain ⟨before, after, -, -, hline⟩ := Text.trim_split line
    intro hmem
    rw [hline] at h
    simp [hmem] at h
  rw [ofChars_of_content hblank hcomment, cutChars_undivided htrim]

theorem ofChars_blank (h : Blanks line) : Line.ofChars line = .nothing := by
  simp [Line.ofChars, Text.trim_eq_nil_iff.mpr h]

theorem ofChars_comment (h : Comment line) : Line.ofChars line = .nothing := by
  by_cases hblank : Blanks line
  · exact ofChars_blank hblank
  · obtain ⟨rest, hrest⟩ := List.head?_eq_some_iff.mp ((head?_trim hblank).trans h)
    simp [Line.ofChars, hrest]

/-- A line is blank, a comment, without a `=`, or in two parts. -/
theorem line_cases (line : List Char) :
    Blanks line ∨ Comment line ∨ (¬Blanks line ∧ ¬Comment line ∧ '=' ∉ line) ∨
      ∃ left right, line = left ++ '=' :: right ∧ '=' ∉ left ∧ ¬Comment left := by
  by_cases hblank : Blanks line
  · exact Or.inl hblank
  by_cases hcomment : Comment line
  · exact Or.inr (Or.inl hcomment)
  by_cases hequals : '=' ∈ line
  · obtain ⟨left, right, hline, hleft⟩ := List.eq_append_cons_of_mem hequals
    refine Or.inr (Or.inr (Or.inr ⟨left, right, hline, hleft, fun hc => hcomment ?_⟩))
    rw [hline, comment_append_cons (by decide)]
    exact Or.inl hc
  · exact Or.inr (Or.inr (Or.inl ⟨hblank, hcomment, hequals⟩))

/-- **Blank lines and comments say nothing**, and no other lines do. -/
theorem ofChars_eq_nothing_iff : Line.ofChars line = .nothing ↔ Blanks line ∨ Comment line := by
  constructor
  · intro h
    rcases line_cases line with hb | hc | ⟨hb, hc, hu⟩ | ⟨left, right, rfl, hl, hc⟩
    · exact Or.inl hb
    · exact Or.inr hc
    · rw [ofChars_undivided hu hb hc] at h
      cases h
    · rw [ofChars_divided hl hc] at h
      cases h
  · rintro (hb | hc)
    · exact ofChars_blank hb
    · exact ofChars_comment hc

/-- **A line is malformed** if it is neither blank nor a comment and has no `=`. -/
theorem ofChars_eq_malformed_iff :
    Line.ofChars line = .malformed ↔ ¬Blanks line ∧ ¬Comment line ∧ '=' ∉ line := by
  constructor
  · intro h
    rcases line_cases line with hb | hc | hall | ⟨left, right, rfl, hl, hc⟩
    · rw [ofChars_blank hb] at h
      cases h
    · rw [ofChars_comment hc] at h
      cases h
    · exact hall
    · rw [ofChars_divided hl hc] at h
      cases h
  · rintro ⟨hb, hc, hu⟩
    exact ofChars_undivided hu hb hc

/-! ## 4. Assignments -/

/-- The key and the value that a line assigns.  An empty key is none. -/
def Line.assigned? : Line → Option (String × String)
  | .assignment key value =>
    if key.isEmpty then none else some (String.ofList key, String.ofList value)
  | _ => none

theorem Line.apply_eq (said : Line) (values : Values) :
    said.apply values =
      match said.assigned? with
      | none => values
      | some (key, value) => Assoc.set key value values := by
  cases said with
  | nothing => rfl
  | malformed => rfl
  | assignment key value => cases key <;> rfl

namespace Written

variable (w : Written)

theorem front_undivided : '=' ∉ w.front := by
  have hgap (gap : Gap) : '=' ∉ gap.chars := fun h => absurd (gap.blanks _ h) (by decide)
  simp [front, hgap, w.assignment.undivided]

theorem trim_front : trim w.front = w.assignment.key :=
  Text.trim_padded w.before.blanks w.afterKey.blanks w.assignment.trimmed

theorem trim_back : trim w.back = w.style.write w.assignment.value :=
  Text.trim_padded w.beforeValue.blanks w.after.blanks (Style.trimmed_write w.fits)

theorem front_not_blanks : ¬Blanks w.front := fun h =>
  w.assignment.key_ne_nil (w.trim_front.symm.trans (Text.trim_eq_nil_iff.mpr h))

theorem front_not_comment : ¬Comment w.front := by
  unfold Comment
  rw [← head?_trim w.front_not_blanks, w.trim_front]
  exact w.assignment.uncommented

/-- **What was written is read.** -/
theorem ofChars_chars :
    Line.ofChars w.chars = .assignment w.assignment.key w.assignment.value := by
  rw [chars, ofChars_divided w.front_undivided w.front_not_comment, w.trim_front, w.trim_back,
    Style.unquote_write w.fits]

theorem assigned?_chars : (Line.ofChars w.chars).assigned? = some w.assignment.pair := by
  rw [w.ofChars_chars]
  simp [Line.assigned?, w.assignment.key_ne_nil, Assignment.pair]

theorem oneLine_chars : OneLine w.chars := by
  have hvalue : OneLine (w.style.write w.assignment.value) := by
    have h := w.assignment.value_oneLine
    cases w.style with
    | bare => exact h
    | single => simpa [Style.write, oneLine_cons, oneLine_append, OneLine] using h
    | double => simpa [Style.write, oneLine_cons, oneLine_append, OneLine] using h
  simp [chars, front, back, oneLine_append, oneLine_cons, w.before.oneLine, w.afterKey.oneLine,
    w.beforeValue.oneLine, w.after.oneLine, w.assignment.key_oneLine, hvalue]

/-- A line in two parts is one on which an assignment is written, unless its key is empty. -/
theorem exists_of_divided (hleft : '=' ∉ left) (hcomment : ¬Comment left) (hkey : trim left ≠ [])
    (hone : OneLine (left ++ '=' :: right)) :
    ∃ w : Written, w.chars = left ++ '=' :: right ∧ w.assignment.key = trim left ∧
      w.assignment.value = unquote (trim right) := by
  obtain ⟨hleftOne, hrightOne⟩ := (oneLine_append _ _).mp hone
  replace hrightOne := ((oneLine_cons _ _).mp hrightOne).2
  obtain ⟨g₁, g₂, hg₁, hg₂, hl⟩ := Text.trim_split left
  obtain ⟨g₃, g₄, hg₃, hg₄, hr⟩ := Text.trim_split right
  obtain ⟨style, value, hfits, hwrite⟩ := Style.exists_write (Text.trimmed_trim right)
  have hlines := hl ▸ hleftOne
  rw [oneLine_append, oneLine_append] at hlines
  have hliner := hr ▸ hrightOne
  rw [oneLine_append, oneLine_append] at hliner
  have hhead : (trim left).head? ≠ some '#' := by
    rwa [head?_trim fun hb => hkey (Text.trim_eq_nil_iff.mpr hb)]
  have hundivided : '=' ∉ trim left := fun hmem => hleft (by rw [hl]; simp [hmem])
  have hvalue : unquote (trim right) = value := by rw [hwrite, Style.unquote_write hfits]
  let a : Assignment := ⟨trim left, value, hkey, Text.trimmed_trim left, hundivided, hhead,
    hlines.1.2, Style.oneLine_write (hwrite ▸ hliner.1.2)⟩
  refine ⟨⟨a, style, hfits, ⟨g₁, hg₁, hlines.1.1⟩, ⟨g₂, hg₂, hlines.2⟩,
    ⟨g₃, hg₃, hliner.1.1⟩, ⟨g₄, hg₄, hliner.2⟩⟩, ?_, rfl, hvalue.symm⟩
  calc (g₁ ++ trim left ++ g₂) ++ '=' :: (g₃ ++ style.write value ++ g₄)
      = (g₁ ++ trim left ++ g₂) ++ '=' :: (g₃ ++ trim right ++ g₄) := by rw [hwrite]
    _ = left ++ '=' :: right := by rw [← hl, ← hr]

end Written

/-- **The reader takes exactly the written assignments for assignments**, and reads in each the key
and the value that were written. -/
theorem assigned?_ofChars_iff (hone : OneLine line) {pair : String × String} :
    (Line.ofChars line).assigned? = some pair ↔
      ∃ w : Written, w.chars = line ∧ w.assignment.pair = pair := by
  constructor
  · intro h
    rcases line_cases line with hb | hc | ⟨hb, hc, hu⟩ | ⟨left, right, rfl, hl, hc⟩
    · simp [ofChars_blank hb, Line.assigned?] at h
    · simp [ofChars_comment hc, Line.assigned?] at h
    · simp [ofChars_undivided hu hb hc, Line.assigned?] at h
    · rw [ofChars_divided hl hc] at h
      by_cases hkey : trim left = []
      · simp [hkey, Line.assigned?] at h
      · obtain ⟨w, hchars, hk, hv⟩ := Written.exists_of_divided hl hc hkey hone
        have hpair : (String.ofList (trim left), String.ofList (unquote (trim right))) = pair := by
          simpa [Line.assigned?, hkey] using h
        exact ⟨w, hchars, by rw [← hpair, ← hk, ← hv]; rfl⟩
  · rintro ⟨w, rfl, rfl⟩
    exact w.assigned?_chars

end Dissect.Settings
