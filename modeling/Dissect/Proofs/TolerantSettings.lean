/-
# Bad settings files

A settings file that is missing, unreadable or a directory is reported and counts as empty.  In one
that is a text, a line that says nothing intelligible is reported and passed over, and every
assignment before and after it counts.

Only the bytes of a file can be fatal, and they are if they are no text: then reading fails, and so
does every look-up that has to read (`settings_tolerated`).
-/
import Dissect.Proofs.FileOperations
import Dissect.Proofs.Following
import Dissect.Proofs.SettingsInForce

namespace Dissect.Settings

open Run (FailsAt)
open Text (Blanks linesOf unifyNewlines)

variable {line : List Char} {host : Host} {path : String} {key : String}

/-! ## 1. Lines of any text -/

/-- A line has no line end in it, and no character that is not in the text. -/
theorem mem_linesOf {cs : List Char} (h : line ∈ linesOf cs) :
    '\n' ∉ line ∧ ∀ c ∈ line, c ∈ cs := by
  induction cs generalizing line with
  | nil => simp [linesOf] at h
  | cons c rest ih =>
    rw [linesOf] at h
    by_cases hc : c = '\n'
    · rw [if_pos hc] at h
      rcases List.mem_cons.mp h with rfl | h
      · simp
      · exact ⟨(ih h).1, fun d hd => List.mem_cons_of_mem _ ((ih h).2 d hd)⟩
    · rw [if_neg hc] at h
      cases hrest : linesOf rest with
      | nil =>
        rw [hrest] at h
        obtain rfl := List.mem_singleton.mp h
        simpa using fun h => hc h.symm
      | cons first others =>
        rw [hrest] at h ih
        rcases List.mem_cons.mp h with rfl | h
        · obtain ⟨hlf, hsub⟩ := ih List.mem_cons_self
          constructor
          · simpa [hlf] using fun h => hc h.symm
          · intro d hd
            rcases List.mem_cons.mp hd with rfl | hd
            · exact List.mem_cons_self
            · exact List.mem_cons_of_mem _ (hsub d hd)
        · obtain ⟨hlf, hsub⟩ := ih (List.mem_cons_of_mem _ h)
          exact ⟨hlf, fun d hd => List.mem_cons_of_mem _ (hsub d hd)⟩

theorem oneLine_of_mem {text : String} (h : line ∈ linesOfText text) : OneLine line := by
  obtain ⟨hlf, hsub⟩ := mem_linesOf h
  exact ⟨hlf, fun hcr => Text.cr_not_mem_unifyNewlines _ (hsub _ hcr)⟩

/-- The line is neither blank nor a comment, and it has no `=`. -/
def Unintelligible (line : List Char) : Prop := ¬Blanks line ∧ ¬Comment line ∧ '=' ∉ line

instance (line : List Char) : Decidable (Unintelligible line) :=
  inferInstanceAs (Decidable (_ ∧ _))

/-- The numbers of the unintelligible lines, the first of which has the given number. -/
def unintelligibleFrom (number : Nat) (lines : List (List Char)) : List Nat :=
  ((lines.zipIdx number).filter fun (line, _) => Unintelligible line).map Prod.snd

/-- The unintelligible lines are reported, each by its number. -/
theorem warningsFrom_eq (number : Nat) (lines : List (List Char)) :
    warningsFrom number lines = (unintelligibleFrom number lines).map malformedMessage := by
  induction lines generalizing number with
  | nil => rfl
  | cons line rest ih =>
    have hiff : Line.ofChars line = .malformed ↔ Unintelligible line := ofChars_eq_malformed_iff
    by_cases hline : Unintelligible line
    · rw [warningsFrom, if_pos (hiff.mpr hline), ih]
      simp [unintelligibleFrom, List.zipIdx_cons, hline]
    · rw [warningsFrom, if_neg (hline ∘ hiff.mp), ih]
      simp [unintelligibleFrom, List.zipIdx_cons, hline]

/-! ## 2. Files of any bytes -/

/-- There is a file, and its bytes are no text. -/
def Garbled (host : Host) (path : String) : Prop :=
  ∃ data e, host.disk.read path = .ok data ∧ Text.decode? data = .error e

/-- A file whose bytes are no text is read up to some line and then fails. -/
theorem valuesAt_garbled {data : Text.Bytes} {e : Text.DecodeError}
    (hread : host.disk.read path = .ok data) (hdata : Text.decode? data = .error e) :
    ∃ fault messages, (valuesAt path).exec host = (.error fault, warned host messages) ∧
      fault.kind = .unicodeDecodeError := by
  obtain ⟨cs, ⟨why, block⟩, hstream⟩ := Text.decodeStream_stops_iff.mpr ⟨e, hdata⟩
  have hstopped : (linesOfBytes data).2 = some (Files.decodeFault why block) := by
    unfold linesOfBytes
    rw [hstream]
  refine ⟨Files.decodeFault why block, warningsFrom 1 (linesOfBytes data).1, ?_, rfl⟩
  rw [valuesAt_readable hread, hstopped]
  rfl

/-- **Reading a file fails exactly if its bytes are no text.** -/
theorem valuesAt_fails_iff (hnamed : Files.Disk.pathFault? path = none) :
    FailsAt (valuesAt path) host ↔ Garbled host path := by
  unfold FailsAt Garbled
  cases hread : host.disk.read path with
  | error e =>
    rw [valuesAt_unreadable hnamed hread]
    refine iff_of_false ?_ ?_
    · rintro ⟨_, h⟩
      cases h
    · rintro ⟨_, _, h, _⟩
      cases h
  | ok data =>
    cases hdata : Text.decode? data with
    | ok text =>
      rw [valuesAt_text hread hdata]
      refine iff_of_false ?_ ?_
      · rintro ⟨_, h⟩
        cases h
      · rintro ⟨_, e, h, he⟩
        cases h
        rw [hdata] at he
        cases he
    | error e =>
      obtain ⟨fault, messages, hexec, -⟩ := valuesAt_garbled hread hdata
      exact iff_of_true ⟨fault, by rw [hexec]⟩ ⟨data, e, rfl, hdata⟩

/-- What is found to exist can be named. -/
theorem firstExisting_named {disk : Files.Disk} {path : Path} :
    ∀ {paths : List Path}, firstExisting disk paths = .ok (some path) →
      Files.Disk.pathFault? path.text = none
  | [], h => by cases h
  | p :: rest, h => by
    unfold firstExisting at h
    cases hexists : disk.exists? p with
    | error fault =>
      rw [hexists] at h
      cases h
    | ok there =>
      rw [hexists] at h
      cases there with
      | true =>
        cases h
        exact (Files.Disk.check_true_iff.mp hexists).1
      | false => exact firstExisting_named h

/-- The settings file has a path that names it. -/
theorem findFile_named {path : Path} (h : findFile host = .ok (some path)) :
    Files.Disk.pathFault? path.text = none := by
  unfold findFile at h
  cases hresolve : host.disk.resolve host.programFile with
  | error fault =>
    rw [hresolve] at h
    cases h
  | ok program =>
    rw [hresolve] at h
    exact firstExisting_named h

/-- Where the search for the file comes to an end, loading fails only because of the file. -/
theorem load_fails_iff_garbled {found : Option Path} (hnone : host.settings = none)
    (hfind : findFile host = .ok found) :
    FailsAt (load false) host ↔ ∃ path ∈ found, Garbled host path.text := by
  rw [FailsAt, load_none hnone, hfind]
  rcases found with _ | path
  · simp
  · simp only [Option.mem_def, Option.some.injEq, exists_eq_left',
      ← valuesAt_fails_iff (findFile_named hfind), FailsAt]
    rcases (valuesAt path.text).exec host with ⟨fault | values, after⟩ <;> simp

/-! ## 3. What a bad file does -/

/-- **A bad settings file is tolerated unless its bytes are no text.**

A file that cannot be read is reported once and has no values, unless its path is a text that no path
can be, which is a failure.  A file that is a text has the last value of each key that its lines
assign.  These lines are exactly the ones on which an assignment is written, and exactly the
unintelligible ones are reported.  A file whose bytes are no text makes the reading fail with a
decoding error.

So, once the search for the file has come to an end, a look-up fails exactly if the environment does
not answer it and the bytes of the file are no text, the overview exactly if they are no text, and
the tool configuration if they are no text and the environment lacks one of its settings.  Besides
it fails on paths whose home directory is not known. -/
theorem settings_tolerated (host : Host) (path : String) (found : Option Path)
    (hnone : host.settings = none) (hfind : findFile host = .ok found) :
    (∀ fault e, Files.Disk.pathFault? path = some fault → host.disk.read path = .error e →
      (valuesAt path).exec host = (.error fault, host)) ∧
    (∀ e, Files.Disk.pathFault? path = none → host.disk.read path = .error e →
      (valuesAt path).exec host =
        (.ok [], warned host ["Failed to parse .env file: " ++ (e.fault path).message])) ∧
    (∀ data text, host.disk.read path = .ok data → Text.decode? data = .ok text →
      (∃ values, (valuesAt path).exec host = (.ok values,
          warned host ((unintelligibleFrom 1 (linesOfText text)).map malformedMessage)) ∧
        LastAssigned values (assignedOn (linesOfText text))) ∧
      ∀ line ∈ linesOfText text, ∀ pair, (Line.ofChars line).assigned? = some pair ↔
        ∃ w : Written, w.chars = line ∧ w.assignment.pair = pair) ∧
    (∀ data e, host.disk.read path = .ok data → Text.decode? data = .error e →
      ∃ fault messages, (valuesAt path).exec host = (.error fault, warned host messages) ∧
        fault.kind = .unicodeDecodeError) ∧
    (∀ key default, FailsAt (getD key default) host ↔
      host.environmentValue key = none ∧ ∃ path ∈ found, Garbled host path.text) ∧
    (FailsAt status host ↔ ∃ path ∈ found, Garbled host path.text) ∧
    (FailsAt ToolConfiguration.ofSettings host ↔
      ((∃ path ∈ found, Garbled host path.text) ∧
        ∃ key ∈ toolKeys, host.environmentValue key = none) ∨
      Homeless host "JAVA_TOOLS" ∨ Homeless host "CLASSVIEW_TEMP_DIR") := by
  have hload := load_fails_iff_garbled hnone hfind
  refine ⟨fun fault e => valuesAt_unnamed, fun e => valuesAt_unreadable, ?_,
    fun data e => valuesAt_garbled, ?_, ?_, ?_⟩
  · intro data text hread htext
    refine ⟨⟨valuesOf (linesOfText text), ?_, valuesOf_lastAssigned _⟩, ?_⟩
    · rw [valuesAt_text hread htext, warningsFrom_eq]
    · exact fun line hline pair => assigned?_ofChars_iff (oneLine_of_mem hline)
  · intro key default
    rw [getD_fails_iff, hload]
  · rw [status_fails_iff, hload]
  · rw [ofSettings_fails_iff, hload]

/-- The second of three lines is a byte that begins no character.  Neither the line before it nor
the line after it is read. -/
theorem settings_tolerated_unless_byte :
    let data : Text.Bytes := [0x41, 0x3d, 0x62, 0x0a, 0xff, 0x0a, 0x43, 0x3d, 0x64, 0x0a]
    let host : Host := { disk := { tree := ⟨[([".env"], .file (.bytes data) 0o644),
      (["program"], .file (.bytes []) 0o644)]⟩ } }
    (∃ fault messages, (valuesAt "/.env").exec host = (.error fault, warned host messages) ∧
      fault.kind = .unicodeDecodeError) ∧
    FailsAt (getD "A" none) host ∧ FailsAt status host ∧
      FailsAt ToolConfiguration.ofSettings host := by
  intro data host
  have hread : host.disk.read "/.env" = .ok data := Run.ok_of_toOption (by decide +kernel)
  obtain ⟨e, hdata⟩ : ∃ e, Text.decode? data = .error e := by
    cases h : Text.decode? data with
    | error e => exact ⟨e, rfl⟩
    | ok text =>
      have hno : (Text.decode? data).toOption = none := by decide +kernel
      rw [h] at hno
      cases hno
  have hresolve : host.disk.resolve host.programFile = .ok ⟨.root, ["program"]⟩ :=
    Files.Disk.resolve_name ⟨by decide, by decide⟩ (by decide +kernel) (by decide +kernel)
      (by decide +kernel)
  have hfind : findFile host = .ok (some ⟨.root, [".env"]⟩) := by
    unfold findFile
    rw [hresolve]
    exact Run.ok_of_toOption (by decide +kernel)
  have hgarbled : ∃ path ∈ some (⟨.root, [".env"]⟩ : Path), Garbled host path.text :=
    ⟨_, rfl, data, e, hread, hdata⟩
  obtain ⟨-, -, -, hfails, hget, hstatus, hconfiguration⟩ :=
    settings_tolerated host "/.env" (some ⟨.root, [".env"]⟩) rfl hfind
  exact ⟨hfails data e hread hdata, (hget "A" none).mpr ⟨rfl, hgarbled⟩, hstatus.mpr hgarbled,
    hconfiguration.mpr (.inl ⟨hgarbled, "JAVA_TOOLS", by decide, rfl⟩)⟩

end Dissect.Settings
