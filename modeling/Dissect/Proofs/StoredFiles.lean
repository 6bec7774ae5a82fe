/-
# What a store reads

The store forgives most of what may be wrong with its files: a file that is missing, cannot be read,
holds no text or no document, or a document of the wrong shape, counts as empty, and the trouble is
only reported.  One thing it does not forgive, and that is a document nested too deeply
(`ErrorStore.TooDeep`): this is the only way in which reading a file of the store can fail
(`fetch_fails_iff`).  In all other cases what is read is a function of the disk
(`ErrorStore.held`), and reading it changes the log only (`fetch_exec`).
-/
import Dissect.ErrorStore.Basic
import Dissect.Proofs.FileOperations
import Dissect.Proofs.Steps

namespace Dissect

open Files (Disk Errno)

/-- The host after a step is as it was before, but for the log. -/
def Host.OnlyLogged (host after : Host) : Prop := ∃ log, after = { host with log }

namespace Host.OnlyLogged

theorem refl (host : Host) : host.OnlyLogged host := ⟨host.log, rfl⟩

theorem noted (host : Host) (level : Level) (message : String) :
    host.OnlyLogged (host.noted level message) := ⟨_, rfl⟩

theorem disk {host after : Host} (h : host.OnlyLogged after) : after.disk = host.disk := by
  obtain ⟨log, rfl⟩ := h
  rfl

end Host.OnlyLogged

namespace ErrorStore

variable {disk : Disk} {path : Path} {shape : Shape} {host : Host} {fault : Fault}

/-! ## 1. The ways in which a file cannot be read -/

/-- Every trouble with following a path, with opening a file or with the bytes in it is reported. -/
theorem isReported_errno (e : Errno) (file : String) : isReported (e.fault file) = true := by
  cases e <;> rfl

theorem isReported_name {α : Type} {file : String} {result : Except Errno α}
    (h : Errno.name file result = .error fault) : isReported fault = true := by
  unfold Errno.name at h
  cases result with
  | ok a => cases h
  | error e =>
    cases h
    exact isReported_errno e file

theorem isReported_pathFault {text : String} (h : Disk.pathFault? text = some fault) :
    isReported fault = true := by
  unfold isReported
  rw [@Disk.isA_pathFault _ _ .valueError true h rfl rfl, Bool.or_true]

theorem isReported_exists (h : disk.exists? path = .error fault) : isReported fault = true := by
  obtain ⟨e, rfl⟩ := Disk.check_error h
  exact isReported_errno e path.text

theorem isReported_readText {text : String} (h : disk.readText text = .error fault) :
    isReported fault = true := by
  unfold Disk.readText at h
  cases hp : Disk.pathFault? text with
  | some trouble =>
    rw [hp] at h
    cases h
    exact isReported_pathFault hp
  | none =>
    rw [hp] at h
    rcases error_of_bind h with hread | ⟨data, -, h⟩
    · exact isReported_name hread
    · split at h
      · cases h
      · cases h
        rfl

/-- A file that is there, and can be read as a text, holds what its text says. -/
theorem read_there {text : String} (hthere : disk.exists? path = .ok true)
    (htext : disk.readText path.text = .ok text) :
    read disk path = some <$> (Json.parse text).mapError refusalFault := by
  unfold read
  rw [hthere, htext]
  show ((Json.parse text).mapError refusalFault >>= fun document => pure (some document)) = _
  cases Json.parse text <;> rfl

/-- What reading a file comes to: a failure that is reported, nothing if no file is there, or what
the text of the file says. -/
theorem read_cases (disk : Disk) (path : Path) :
    (∃ fault, read disk path = .error fault ∧ isReported fault = true) ∨
      read disk path = .ok none ∨
      ∃ text, disk.exists? path = .ok true ∧ disk.readText path.text = .ok text ∧
        read disk path = some <$> (Json.parse text).mapError refusalFault := by
  cases hthere : disk.exists? path with
  | error trouble =>
    refine .inl ⟨trouble, ?_, isReported_exists hthere⟩
    rw [read, hthere]
    rfl
  | ok there =>
    cases there with
    | false =>
      refine .inr (.inl ?_)
      rw [read, hthere]
      rfl
    | true =>
      cases htext : disk.readText path.text with
      | error trouble =>
        refine .inl ⟨trouble, ?_, isReported_readText htext⟩
        rw [read, hthere, htext]
        rfl
      | ok text => exact .inr (.inr ⟨text, rfl, rfl, read_there hthere htext⟩)

/-- The file holds arrays and objects that are nested too deeply to be read. -/
def TooDeep (disk : Disk) (path : Path) : Prop :=
  ∃ text refusal, disk.exists? path = .ok true ∧ disk.readText path.text = .ok text ∧
    Json.parse text = .error refusal ∧ refusal ≠ .malformed

/-- **A file cannot be read, and that is not reported, exactly if it is nested too deeply.** -/
theorem read_fails_iff :
    (∃ fault, read disk path = .error fault ∧ isReported fault = false) ↔ TooDeep disk path := by
  constructor
  · rintro ⟨fault, h, hno⟩
    rcases read_cases disk path with ⟨trouble, h', hreported⟩ | hnone | ⟨text, hthere, htext, hread⟩
    · cases h.symm.trans h'
      rw [hreported] at hno
      cases hno
    · cases h.symm.trans hnone
    · rw [hread] at h
      cases hparse : Json.parse text with
      | ok document =>
        rw [hparse] at h
        cases h
      | error refusal =>
        rw [hparse] at h
        cases h
        refine ⟨text, refusal, hthere, htext, hparse, ?_⟩
        rintro rfl
        cases hno
  · rintro ⟨text, refusal, hthere, htext, hparse, hne⟩
    refine ⟨refusalFault refusal, by rw [read_there hthere htext, hparse]; rfl, ?_⟩
    cases refusal with
    | malformed => exact absurd rfl hne
    | deepArray => rfl
    | deepObject => rfl

/-! ## 2. What a file counts as -/

/-- The document that a file counts as where a shape is expected. -/
def held (disk : Disk) (path : Path) (shape : Shape) : Json :=
  match read disk path with
  | .ok (some document) => if shape.admits document then document else shape.empty
  | _ => shape.empty

theorem fetch_exec (shape : Shape) (h : ¬ TooDeep disk path) (hd : host.disk = disk) :
    ∃ after, (fetch path shape).exec host = (.ok (held disk path shape), after) ∧
      host.OnlyLogged after := by
  subst hd
  unfold fetch held
  rw [Run.exec_bind_ok (Run.exec_get host)]
  cases hr : read host.disk path with
  | error fault =>
    cases hreported : isReported fault with
    | true =>
      dsimp only
      rw [hreported]
      exact ⟨_, rfl, Host.OnlyLogged.noted _ _ _⟩
    | false => exact absurd (read_fails_iff.mp ⟨fault, hr, hreported⟩) h
  | ok found =>
    cases found with
    | none => exact ⟨host, rfl, Host.OnlyLogged.refl host⟩
    | some document =>
      dsimp only
      cases shape.admits document with
      | true => exact ⟨host, rfl, Host.OnlyLogged.refl host⟩
      | false => exact ⟨_, rfl, Host.OnlyLogged.noted _ _ _⟩

/-- **Fetching a file fails exactly if it is nested too deeply.** -/
theorem fetch_fails_iff : (fetch path shape).FailsAt host ↔ TooDeep host.disk path := by
  constructor
  · rintro ⟨fault, h⟩
    refine Classical.byContradiction fun hno => ?_
    obtain ⟨after, hok, -⟩ := fetch_exec shape hno rfl
    rw [hok] at h
    cases h
  · intro h
    obtain ⟨fault, hr, hno⟩ := read_fails_iff.mpr h
    refine ⟨fault, ?_⟩
    unfold fetch
    rw [Run.exec_bind_ok (Run.exec_get host), hr]
    dsimp only
    rw [hno]
    rfl

/-! ## 3. The manifest and the statistics -/

variable (s : ErrorStore)

/-- The entries of the manifest on a disk. -/
def entriesIn (disk : Disk) : List ManifestEntry :=
  (itemsOf (held disk s.manifestPath .list)).filterMap ManifestEntry.ofJson?

/-- The statistics on a disk. -/
def statsIn (disk : Disk) : List (String × Json) := membersOf (held disk s.statsPath .table)

theorem manifest_exec (h : ¬ TooDeep disk s.manifestPath) (hd : host.disk = disk) :
    ∃ after, s.manifest.exec host = (.ok (s.entriesIn disk), after) ∧ host.OnlyLogged after := by
  obtain ⟨after, hfetch, hlogged⟩ := fetch_exec .list h hd
  refine ⟨after, ?_, hlogged⟩
  unfold manifest
  rw [Run.exec_bind_ok hfetch]
  rfl

theorem manifest_fails_iff : s.manifest.FailsAt host ↔ TooDeep host.disk s.manifestPath := by
  unfold manifest
  rw [Run.FailsAt.bind_iff_first fun document after => Run.FailsAt.pure _]
  exact fetch_fails_iff

theorem stats_exec (h : ¬ TooDeep disk s.statsPath) (hd : host.disk = disk) :
    ∃ after, s.stats.exec host = (.ok (s.statsIn disk), after) ∧ host.OnlyLogged after := by
  obtain ⟨after, hfetch, hlogged⟩ := fetch_exec .table h hd
  refine ⟨after, ?_, hlogged⟩
  unfold stats
  rw [Run.exec_bind_ok hfetch]
  rfl

theorem stats_fails_iff : s.stats.FailsAt host ↔ TooDeep host.disk s.statsPath := by
  unfold stats
  rw [Run.FailsAt.bind_iff_first fun document after => Run.FailsAt.pure _]
  exact fetch_fails_iff

end ErrorStore

end Dissect
