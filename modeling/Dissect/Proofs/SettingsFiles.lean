/-
# Settings files as they are written

A settings file is written line by line: assignments in any of their forms, between them blank lines
and comments, and each line ended in one of three ways.  Reading the file undoes the writing.  It
gives every key its last value, the keys in the order of their first assignment, and reports nothing
(`valuesAt_written`).

Lines are not always read as they were written.  A CR at the end of one line and the LF of an empty
line after it are together one end of a line, so the empty line is lost.  What carries the induction
is therefore that the lines are the same but for empty ones (`contentLines_sheet`).
-/
import Dissect.Proofs.SettingsLines
import Dissect.Proofs.Steps
import Dissect.Proofs.StreamedTexts

namespace Dissect.Settings

open Text (Blanks isBlank linesOf unifyNewlines)

variable {line : List Char} {lines : List (List Char)} {host : Host} {path : String}

/-! ## 1. The values of lines -/

/-- What lines assign, in their order. -/
def assignedOn (lines : List (List Char)) : List (String × String) :=
  lines.filterMap fun line => (Line.ofChars line).assigned?

/-- The table has the last value of each key, in the order of the first assignments. -/
structure LastAssigned (values : Values) (assigned : List (String × String)) : Prop where
  keys : values.map Prod.fst = (assigned.map Prod.fst).eraseDups
  value : ∀ key, values.lookup key = assigned.reverse.lookup key

namespace LastAssigned

variable {values : Values} {assigned : List (String × String)}

theorem nil : LastAssigned [] [] := ⟨rfl, fun _ => rfl⟩

/-- One assignment more. -/
theorem set (h : LastAssigned values assigned) (key value : String) :
    LastAssigned (Assoc.set key value values) (assigned ++ [(key, value)]) := by
  constructor
  · rw [Assoc.keys_set, h.keys, List.map_append, List.eraseDups_append]
    by_cases hmem : key ∈ assigned.map Prod.fst
    · rw [if_pos (List.mem_eraseDups.mpr hmem)]
      simp [List.removeAll, hmem]
    · rw [if_neg fun h => hmem (List.mem_eraseDups.mp h)]
      simp [List.removeAll, hmem, List.eraseDups_cons]
  · intro other
    rw [List.reverse_append, List.reverse_singleton, List.singleton_append, List.lookup_cons]
    by_cases hsame : other = key
    · subst hsame
      simpa using Assoc.lookup_set_self other value values
    · rw [Assoc.lookup_set_of_ne hsame, h.value other, beq_false_of_ne hsame]

end LastAssigned

/-- Each line continues the table of the lines before it. -/
theorem lastAssigned_foldl {values : Values} {assigned : List (String × String)}
    (h : LastAssigned values assigned) (lines : List (List Char)) :
    LastAssigned (lines.foldl (fun values line => (Line.ofChars line).apply values) values)
      (assigned ++ assignedOn lines) := by
  induction lines generalizing values assigned with
  | nil => simpa [assignedOn] using h
  | cons line rest ih =>
    rw [List.foldl_cons, Line.apply_eq, assignedOn, List.filterMap_cons]
    rcases (Line.ofChars line).assigned? with _ | ⟨key, value⟩
    · exact ih h
    · simpa [assignedOn] using ih (h.set key value)

/-- **Of several assignments to a key, the last counts.** -/
theorem valuesOf_lastAssigned (lines : List (List Char)) :
    LastAssigned (valuesOf lines) (assignedOn lines) :=
  lastAssigned_foldl LastAssigned.nil lines

/-- Lines are reported only if one of them is malformed. -/
theorem warningsFrom_eq_nil (h : ∀ line ∈ lines, Line.ofChars line ≠ .malformed) (number : Nat) :
    warningsFrom number lines = [] := by
  induction lines generalizing number with
  | nil => rfl
  | cons line rest ih =>
    rw [warningsFrom, if_neg (h line (by simp)), List.nil_append]
    exact ih (fun other hother => h other (List.mem_cons_of_mem _ hother)) (number + 1)

/-! ## 2. Reading a file -/

/-- The host after warnings. -/
def warned (host : Host) (messages : List String) : Host :=
  { host with log := host.log ++ messages.map (⟨.warning, ·⟩) }

theorem warn_exec (messages : List String) (host : Host) :
    (warn messages).exec host = (.ok (), warned host messages) := by
  induction messages generalizing host with
  | nil => simp [warn, warned]
  | cons message rest ih =>
    have hstep : warn (message :: rest) = (do Run.note .warning message; warn rest) := rfl
    rw [hstep, Run.exec_bind_ok (Run.exec_note _ _ host), ih]
    simp [warned, Host.noted]

/-- A text that no path can be, and so names no file, is a failure. -/
theorem valuesAt_unnamed {fault : Fault} {e : Files.Errno}
    (hfault : Files.Disk.pathFault? path = some fault) (h : host.disk.read path = .error e) :
    (valuesAt path).exec host = (.error fault, host) := by
  unfold valuesAt
  rw [Run.exec_bind_ok (Run.exec_look _ host), h]
  simp only [hfault]
  rfl

/-- A file that cannot be opened is reported, and has no values. -/
theorem valuesAt_unreadable {e : Files.Errno} (hnamed : Files.Disk.pathFault? path = none)
    (h : host.disk.read path = .error e) :
    (valuesAt path).exec host =
      (.ok [], warned host ["Failed to parse .env file: " ++ (e.fault path).message]) := by
  unfold valuesAt
  rw [Run.exec_bind_ok (Run.exec_look _ host), h]
  simp only [hnamed]
  rfl

/-- A file that can be opened is reported line by line, and has the values of its lines unless the
reading stopped. -/
theorem valuesAt_readable {data : Text.Bytes} (h : host.disk.read path = .ok data) :
    (valuesAt path).exec host =
      ((linesOfBytes data).2.elim (.ok (valuesOf (linesOfBytes data).1)) .error,
        warned host (warningsFrom 1 (linesOfBytes data).1)) := by
  unfold valuesAt
  rw [Run.exec_bind_ok (Run.exec_look _ host), h]
  simp only
  rw [Run.exec_bind_ok (warn_exec _ host)]
  cases (linesOfBytes data).2 <;> rfl

/-- The lines of a text. -/
def linesOfText (text : String) : List (List Char) := linesOf (unifyNewlines text.toList)

theorem linesOfBytes_of_text {data : Text.Bytes} {text : String}
    (h : Text.decode? data = .ok text) : linesOfBytes data = (linesOfText text, none) := by
  have hstream : Text.decodeStream data = (text.toList, none) := by
    rwa [Text.decodeStream_ok_iff, String.ofList_toList]
  unfold linesOfBytes
  rw [hstream]
  rfl

/-- **A text file is read to its end.**  Its values are those of its lines, and its malformed lines
are reported. -/
theorem valuesAt_text {data : Text.Bytes} {text : String} (hread : host.disk.read path = .ok data)
    (htext : Text.decode? data = .ok text) :
    (valuesAt path).exec host =
      (.ok (valuesOf (linesOfText text)), warned host (warningsFrom 1 (linesOfText text))) := by
  rw [valuesAt_readable hread, linesOfBytes_of_text htext]
  rfl

/-! ## 3. Writing a file -/

/-- How a line may end. -/
inductive LineEnd where
  | lf
  | crlf
  | cr

def LineEnd.chars : LineEnd → List Char
  | .lf => ['\n']
  | .crlf => ['\r', '\n']
  | .cr => ['\r']

/-- What may stand on a line. -/
inductive Entry where
  | blank (gap : Gap)
  | comment (gap : Gap) (text : List Char) (oneLine : OneLine text)
  | assignment (written : Written)

namespace Entry

/-- The characters of the line. -/
def chars : Entry → List Char
  | .blank gap => gap.chars
  | .comment gap text _ => gap.chars ++ '#' :: text
  | .assignment written => written.chars

/-- What the line assigns. -/
def assigned? : Entry → Option (String × String)
  | .assignment written => some written.assignment.pair
  | _ => none

theorem oneLine_chars (entry : Entry) : OneLine entry.chars := by
  cases entry with
  | blank gap => exact gap.oneLine
  | comment gap text oneLine =>
    rw [chars, oneLine_append, oneLine_cons]
    exact ⟨gap.oneLine, by decide, oneLine⟩
  | assignment written => exact written.oneLine_chars

/-- **A line says what was written on it.** -/
theorem ofChars_chars (entry : Entry) :
    Line.ofChars entry.chars ≠ .malformed ∧
      (Line.ofChars entry.chars).assigned? = entry.assigned? := by
  cases entry with
  | blank gap =>
    rw [chars, ofChars_blank gap.blanks]
    exact ⟨nofun, rfl⟩
  | comment gap text oneLine =>
    have hcomment : Comment (gap.chars ++ '#' :: text) :=
      (comment_append_cons (by decide)).mpr (Or.inr ⟨gap.blanks, rfl⟩)
    rw [chars, ofChars_comment hcomment]
    exact ⟨nofun, rfl⟩
  | assignment written =>
    refine ⟨?_, written.assigned?_chars⟩
    rw [chars, written.ofChars_chars]
    nofun

end Entry

/-- A line with its end. -/
structure Row where
  entry : Entry
  ending : LineEnd

/-- The lines of a file. -/
abbrev Sheet := List Row

namespace Sheet

/-- The characters of the file. -/
def chars (sheet : Sheet) : List Char :=
  sheet.flatMap fun row => row.entry.chars ++ row.ending.chars

/-- What the file assigns, in the order of the lines. -/
def assigned (sheet : Sheet) : List (String × String) :=
  sheet.filterMap fun row => row.entry.assigned?

end Sheet

/-! ## 4. What was written is read -/

theorem unifyNewlines_append (h : '\r' ∉ line) (rest : List Char) :
    unifyNewlines (line ++ rest) = line ++ unifyNewlines rest := by
  induction line with
  | nil => rfl
  | cons c later ih =>
    obtain ⟨hc, hlater⟩ : '\r' ≠ c ∧ '\r' ∉ later := by simpa using h
    rw [List.cons_append, unifyNewlines, if_neg hc.symm, ih hlater, List.cons_append]
    exact fun _ h _ => hc h.symm

/-- A line without line ends is read up to the end that follows it. -/
theorem linesOf_append (h : '\n' ∉ line) (rest : List Char) :
    linesOf (line ++ '\n' :: rest) = line :: linesOf rest := by
  induction line with
  | nil => simp [linesOf]
  | cons c later ih =>
    obtain ⟨hc, hlater⟩ : '\n' ≠ c ∧ '\n' ∉ later := by simpa using h
    rw [List.cons_append, linesOf, if_neg hc.symm, ih hlater]

/-- The lines that are not empty. -/
def contentLines (lines : List (List Char)) : List (List Char) := lines.filter (! ·.isEmpty)

theorem contentLines_cons (line : List Char) (lines : List (List Char)) :
    contentLines (line :: lines) = contentLines [line] ++ contentLines lines :=
  List.filter_append [line] lines

/-- An empty line is nothing. -/
theorem contentLines_cons_nil (lines : List (List Char)) :
    contentLines ([] :: lines) = contentLines lines := rfl

/-- **But for empty lines, the lines are read that were written.** -/
theorem contentLines_sheet (sheet : Sheet) :
    contentLines (linesOf (unifyNewlines sheet.chars)) =
      contentLines (sheet.map fun row => row.entry.chars) := by
  induction sheet with
  | nil => rfl
  | cons first rest ih =>
    obtain ⟨entry, ending⟩ := first
    obtain ⟨hlf, hcr⟩ := entry.oneLine_chars
    have hline (later : List Char) :
        contentLines (linesOf (entry.chars ++ '\n' :: later)) =
          contentLines [entry.chars] ++ contentLines (linesOf later) := by
      rw [linesOf_append hlf, contentLines_cons]
    rw [Sheet.chars, List.flatMap_cons, List.append_assoc, unifyNewlines_append hcr, List.map_cons,
      contentLines_cons, ← ih, ← Sheet.chars]
    cases ending with
    | lf => exact hline _
    | crlf => exact hline _
    | cr =>
      -- The CR is an end of its own unless the next line is empty and ends with LF.
      rw [LineEnd.chars, List.singleton_append]
      rcases hrest : Sheet.chars rest with _ | ⟨c, later⟩
      · exact hline []
      · by_cases hc : c = '\n'
        · subst hc
          have hempty :
              linesOf (unifyNewlines ('\n' :: later)) = [] :: linesOf (unifyNewlines later) :=
            rfl
          rw [unifyNewlines, hline, hempty, contentLines_cons_nil]
        · rw [unifyNewlines, if_pos rfl, hline]
          exact fun _ _ h => hc (List.cons.inj h).1

/-- Empty lines assign nothing. -/
theorem assignedOn_contentLines (lines : List (List Char)) :
    assignedOn (contentLines lines) = assignedOn lines := by
  unfold assignedOn contentLines
  rw [List.filterMap_filter]
  congr 1
  funext line
  cases line <;> rfl

/-- The file is read for what it assigns. -/
theorem assignedOn_sheet (sheet : Sheet) :
    assignedOn (linesOf (unifyNewlines sheet.chars)) = sheet.assigned := by
  rw [← assignedOn_contentLines, contentLines_sheet, assignedOn_contentLines, assignedOn,
    List.filterMap_map]
  exact congrArg (sheet.filterMap ·) (funext fun row => row.entry.ofChars_chars.2)

/-- No line of a written file is malformed. -/
theorem not_malformed_of_sheet {sheet : Sheet}
    (h : line ∈ linesOf (unifyNewlines sheet.chars)) : Line.ofChars line ≠ .malformed := by
  by_cases hempty : line = []
  · subst hempty
    nofun
  · have hcontent : line ∈ contentLines (linesOf (unifyNewlines sheet.chars)) := by
      simpa [contentLines, hempty] using h
    rw [contentLines_sheet] at hcontent
    obtain ⟨row, -, rfl⟩ := List.mem_map.mp (List.mem_filter.mp hcontent).1
    exact row.entry.ofChars_chars.1

/-- **Reading undoes writing.**  Take any settings file: assignments bare or in quotes, with blanks
around them, blank lines and comments between them, every line ended by LF, CR LF or CR.  What is
read from it is the last value of each key, with the keys in the order of their first assignment,
and nothing is reported. -/
theorem valuesAt_written (host : Host) (path : String) (sheet : Sheet)
    (hread : host.disk.read path = .ok (Text.encode (String.ofList sheet.chars))) :
    ∃ values, (valuesAt path).exec host = (.ok values, host) ∧
      LastAssigned values sheet.assigned := by
  have hlines : linesOfText (String.ofList sheet.chars) = linesOf (unifyNewlines sheet.chars) := by
    rw [linesOfText, String.toList_ofList]
  refine ⟨valuesOf (linesOf (unifyNewlines sheet.chars)), ?_, ?_⟩
  · rw [valuesAt_text hread (Text.decode?_encode _), hlines,
      warningsFrom_eq_nil (fun line h => not_malformed_of_sheet h)]
    simp [warned]
  · rw [← assignedOn_sheet]
    exact valuesOf_lastAssigned _

/-- A file with all three ends of lines: a comment ended by a CR, an empty line whose LF is lost to
that CR, a quoted value with an `=`, a `#` and a line separator in it, and a key assigned twice. -/
theorem valuesAt_written_twice :
    let gap : Gap := ⟨[' ', '\u2003'], by decide, by decide⟩
    let quoted : Written := {
      assignment := ⟨['K', 'e', 'y'], ['a', '=', '#', '\u2028', '\''], by decide, by decide,
        by decide, by decide, by decide, by decide⟩
      style := .double, fits := trivial
      before := gap, afterKey := gap, beforeValue := gap, after := gap }
    let other : Written := {
      assignment := ⟨['L'], [' '], by decide, by decide, by decide, by decide, by decide, by decide⟩
      style := .single, fits := trivial
      before := .none, afterKey := .none, beforeValue := .none, after := .none }
    let bare : Written := {
      assignment := ⟨['K', 'e', 'y'], ['b'], by decide, by decide, by decide, by decide, by decide,
        by decide⟩
      style := .bare, fits := ⟨by decide, by rintro ⟨_, _ | _, -, h⟩ <;> simp at h⟩
      before := .none, afterKey := .none, beforeValue := .none, after := gap }
    let sheet : Sheet := [⟨.comment gap ['='] (by decide), .cr⟩, ⟨.blank .none, .lf⟩,
      ⟨.assignment quoted, .crlf⟩, ⟨.assignment other, .cr⟩, ⟨.assignment bare, .lf⟩]
    let host : Host := { disk := { tree := ⟨[([".env"],
      .file (.bytes (Text.encode (String.ofList sheet.chars))) 0o644)]⟩ } }
    (∃ values, (valuesAt "/.env").exec host = (.ok values, host) ∧
      LastAssigned values sheet.assigned) ∧
    ((valuesAt "/.env").exec host).1.toOption = some [("Key", "b"), ("L", " ")] := by
  intro gap quoted other bare sheet host
  have hread : host.disk.read "/.env" = .ok (Text.encode (String.ofList sheet.chars)) :=
    Run.ok_of_toOption (by decide +kernel)
  exact ⟨valuesAt_written host "/.env" sheet hread, by decide +kernel⟩

end Dissect.Settings
