/-
# When a summary fails

The files of the error store may hold anything, and what is read of them is told as well as it can
be.  Two things are not provided for, and these are all (`ErrorStore.summaries_fail_iff`).

* **A file is nested too deeply**: reading it fails (`ErrorStore.TooDeep`).
* **A time stamp is a number but no time.**  An entry of the manifest is let in if its time stamp is
  a number; the summary then takes the date of it, and that fails for a NaN, an infinity and whatever
  lies outside the calendar (`Moment.Dated`).
-/
import Dissect.Functions
import Dissect.Proofs.StoredFiles

namespace Dissect

/-! ## 1. Dates of time stamps -/

namespace Moment

/-- The first second of the system's calendar. -/
def firstSecond : Int := -67768040609740800

/-- The last second of the last year that a date can have, the year 2147483647. -/
def lastSecond : Int := 67767976233532799

/-- The time stamp is a number of seconds within the calendar. -/
def Dated (stamp : Json) : Prop :=
  ∃ t, seconds stamp = .ok t ∧ firstSecond ≤ t ∧ t ≤ lastSecond

/-- The year in which a day of an era falls, counted from the beginning of the era. -/
def yearOfDay (dayOfEra : Nat) : Nat :=
  let yearOfEra :=
    (dayOfEra - dayOfEra / 1460 + dayOfEra / 36524 - dayOfEra / 146096) / 365
  let dayOfYear := dayOfEra - (365 * yearOfEra + yearOfEra / 4 - yearOfEra / 100)
  let monthFromMarch := (5 * dayOfYear + 2) / 153
  let month := if monthFromMarch < 10 then monthFromMarch + 3 else monthFromMarch - 9
  yearOfEra + (if month ≤ 2 then 1 else 0)

/-- The day on which the year after the last one begins is the 17472nd of its era. -/
theorem yearOfDay_le_iff {dayOfEra : Nat} (h : dayOfEra < 146097) :
    yearOfDay dayOfEra ≤ 47 ↔ dayOfEra < 17472 := by
  unfold yearOfDay
  dsimp only
  generalize hy : (dayOfEra - dayOfEra / 1460 + dayOfEra / 36524 - dayOfEra / 146096) / 365 = y
  have h47 : y < 47 → dayOfEra < 17166 := by omega
  have h48 : 47 < y → 17532 ≤ dayOfEra := by omega
  split <;> split <;> omega

/-- The year of a second, from its day counted from the March of the year 0. -/
theorem year_ofSeconds_eq (t : Int) :
    (ofSeconds t).year = (t / 86400 + 719468) / 146097 * 400 +
      yearOfDay ((t / 86400 + 719468) % 146097).toNat := by
  have hday : t / 86400 + 719468 - (t / 86400 + 719468) / 146097 * 146097 =
      (t / 86400 + 719468) % 146097 := by omega
  unfold ofSeconds yearOfDay
  dsimp only
  rw [Int.fdiv_eq_ediv_of_nonneg t (by decide), Int.fdiv_eq_ediv_of_nonneg _ (by decide), hday]
  generalize ((t / 86400 + 719468) % 146097).toNat = d
  generalize (d - d / 1460 + d / 36524 - d / 146096) / 365 = y
  generalize (5 * (d - (365 * y + y / 4 - y / 100)) + 2) / 153 = m
  generalize (if m < 10 then m + 3 else m - 9) = month
  split <;> omega

/-- The year of a second passes the last one exactly after the last second. -/
theorem year_ofSeconds_le_iff {t : Int} : (ofSeconds t).year ≤ 2147483647 ↔ t ≤ lastSecond := by
  rw [year_ofSeconds_eq]
  unfold lastSecond
  generalize hdays : t / 86400 + 719468 = days
  have hbound : yearOfDay (days % 146097).toNat ≤ 400 := by
    unfold yearOfDay
    dsimp only
    split <;> split <;> omega
  have hday : (days % 146097).toNat < 146097 := by omega
  have hlast := yearOfDay_le_iff hday
  omega

/-- **A time stamp has a date exactly if it is a number of seconds within the calendar.** -/
theorem ofStamp_ok_iff {stamp : Json} : (∃ m, ofStamp stamp = .ok m) ↔ Dated stamp := by
  unfold ofStamp Dated
  cases hs : seconds stamp with
  | error fault =>
    constructor
    · rintro ⟨_, h⟩
      cases h
    · rintro ⟨_, h, -⟩
      cases h
  | ok t =>
    have hyear := year_ofSeconds_le_iff (t := t)
    constructor
    · rintro ⟨m, h⟩
      refine ⟨t, rfl, ?_⟩
      unfold firstSecond
      simp only [bind, Except.bind] at h
      split at h
      · cases h
      split at h
      · cases h
      split at h
      · cases h
      rename_i _ hcalendar hlast
      simp only [Bool.or_eq_true, decide_eq_true_eq] at hcalendar
      omega
    · rintro ⟨t', h, hfirst, hlast⟩
      cases h
      refine ⟨ofSeconds t, ?_⟩
      have hlater := hyear.mpr hlast
      unfold firstSecond at hfirst
      unfold lastSecond at hlast
      simp only [bind, Except.bind]
      rw [if_neg, if_neg, if_neg]
      · rfl
      · omega
      · simp only [Bool.or_eq_true, decide_eq_true_eq]
        omega
      · simp only [Bool.or_eq_true, decide_eq_true_eq]
        omega

end Moment

open Moment (Dated)

namespace ErrorStore

variable {host : Host}

/-! ## 2. The text of a summary -/

/-- The lines about an entry can be had exactly if its time stamp has a date. -/
theorem entryLines_fails_iff {e : ManifestEntry} :
    (∃ fault, entryLines e = .error fault) ↔ ¬ Dated e.stamp := by
  rw [← Moment.ofStamp_ok_iff]
  unfold entryLines
  cases hm : Moment.ofStamp e.stamp with
  | error fault => exact ⟨fun _ ⟨_, h⟩ => (by cases h), fun _ => ⟨fault, rfl⟩⟩
  | ok m => exact ⟨fun ⟨_, h⟩ => (by cases h), fun h => absurd ⟨m, rfl⟩ h⟩

theorem summaryText_fails_iff {entries : List ManifestEntry} {stats : List (String × Json)} :
    (∃ fault, summaryText entries stats = .error fault) ↔ ∃ e ∈ entries, ¬ Dated e.stamp := by
  simp only [← entryLines_fails_iff]
  rw [← mapM_fails_iff]
  unfold summaryText
  cases entries.mapM entryLines with
  | error fault => exact ⟨fun _ => ⟨fault, rfl⟩, fun _ => ⟨fault, rfl⟩⟩
  | ok lines => exact ⟨fun ⟨_, h⟩ => (by cases h), fun ⟨_, h⟩ => (by cases h)⟩

/-! ## 3. Reading -/

variable (s : ErrorStore)

/-- The entries that are shown when a number of them is asked for. -/
def shown (disk : Files.Disk) (count : Int) : List ManifestEntry :=
  takeSigned count (s.entriesIn disk)

theorem recent_exec (count : Int) (h : ¬ TooDeep host.disk s.manifestPath) :
    ∃ after, (s.recent count).exec host = (.ok (s.shown host.disk count), after) ∧
      host.OnlyLogged after := by
  obtain ⟨after, hmanifest, hlogged⟩ := s.manifest_exec h rfl
  refine ⟨after, ?_, hlogged⟩
  unfold recent
  rw [Run.exec_bind_ok hmanifest]
  rfl

theorem recent_fails_iff {count : Int} :
    (s.recent count).FailsAt host ↔ TooDeep host.disk s.manifestPath := by
  unfold recent
  rw [Run.FailsAt.bind_iff_first fun entries after => Run.FailsAt.pure _]
  exact s.manifest_fails_iff

/-- The summary cannot be given: the manifest is nested too deeply; or there are entries to be
shown, and the statistics are nested too deeply or one of the entries has no date. -/
def Unsummarised (disk : Files.Disk) (count : Int) : Prop :=
  TooDeep disk s.manifestPath ∨
    ((s.shown disk count ≠ [] ∧ TooDeep disk s.statsPath) ∨
      ∃ e ∈ s.shown disk count, ¬ Dated e.stamp)

theorem summary_fails_iff {count : Int} :
    (s.summary count).FailsAt host ↔ s.Unsummarised host.disk count := by
  unfold Unsummarised
  by_cases hdeep : TooDeep host.disk s.manifestPath
  · have hrecent : (s.recent count).FailsAt host := s.recent_fails_iff.mpr hdeep
    exact ⟨fun _ => .inl hdeep, fun _ => Run.FailsAt.bind_iff.mpr (.inl hrecent)⟩
  · obtain ⟨middle, hrecent, hlogged⟩ := s.recent_exec count hdeep
    unfold summary
    rw [Run.FailsAt.bind_iff_second hrecent]
    generalize hshown : s.shown host.disk count = shown
    cases shown with
    | nil =>
      constructor
      · exact fun h => absurd h (Run.FailsAt.pure _)
      · rintro (h | ⟨hne, -⟩ | ⟨_, hm, -⟩)
        · exact absurd h hdeep
        · exact absurd rfl hne
        · cases hm
    | cons entry rest =>
      simp only [List.isEmpty_cons, Bool.false_eq_true, if_false]
      rw [Run.FailsAt.bind_iff, stats_fails_iff, hlogged.disk]
      constructor
      · rintro (h | ⟨stats, after, -, fault, hfails⟩)
        · exact .inr (.inl ⟨List.cons_ne_nil _ _, h⟩)
        · rw [Run.exec_ofExcept] at hfails
          exact .inr (.inr (summaryText_fails_iff.mp ⟨fault, hfails⟩))
      · rintro (h | ⟨-, h⟩ | hdate)
        · exact absurd h hdeep
        · exact .inl h
        · by_cases hstats : TooDeep host.disk s.statsPath
          · exact .inl hstats
          · obtain ⟨after, hread, -⟩ := s.stats_exec hstats hlogged.disk
            obtain ⟨fault, hfails⟩ := summaryText_fails_iff.mpr hdate
            exact .inr ⟨_, after, hread, fault, by rw [Run.exec_ofExcept]; exact hfails⟩

/-- **When reading a store fails.**  Reading the newest entries fails exactly if the manifest is
nested too deeply, reading the statistics exactly if they are, and a summary exactly if it cannot be
given; and so does the function that clients call, which never shows less than one entry or more
than a hundred, and never fails where there is no store. -/
theorem summaries_fail_iff (count : Int) (host : Host) :
    ((s.recent count).FailsAt host ↔ TooDeep host.disk s.manifestPath) ∧
    (s.stats.FailsAt host ↔ TooDeep host.disk s.statsPath) ∧
    ((s.summary count).FailsAt host ↔ s.Unsummarised host.disk count) ∧
    ∀ service : Service, (Functions.errors service count).FailsAt host ↔
      ∃ store, service.store = some store ∧
        store.Unsummarised host.disk (Functions.clampCount count) := by
  refine ⟨s.recent_fails_iff, s.stats_fails_iff, s.summary_fails_iff, fun service => ?_⟩
  unfold Functions.errors
  cases service.store with
  | none => exact ⟨fun h => absurd h (Run.FailsAt.pure _), fun ⟨_, h, _⟩ => (by cases h)⟩
  | some store =>
    constructor
    · exact fun h => ⟨store, rfl, store.summary_fails_iff.mp h⟩
    · rintro ⟨_, h, hno⟩
      cases h
      exact store.summary_fails_iff.mpr hno

/-- A manifest with an entry of a year that no date can have. -/
theorem summary_fails_on_far_future :
    let s : ErrorStore := { directory := ⟨.root, []⟩ }
    let manifest := "[\x7b\"error_id\": \"e\", \"timestamp\": 99999999999999999999\x7d]"
    let host : Host := {
      disk := { tree := ⟨[(["manifest.json"], .file (.bytes (Text.encode manifest)) 0o644)]⟩ } }
    (s.summary 10).FailsAt host := by
  intro s manifest host
  have hfar : (s.shown host.disk 10).any (fun e =>
      (Moment.seconds e.stamp).toOption.any (Moment.lastSecond < ·)) = true := by decide +kernel
  obtain ⟨e, he, hlate⟩ := List.any_eq_true.mp hfar
  refine (s.summaries_fail_iff 10 host).2.2.1.mpr (.inr (.inr ⟨e, he, ?_⟩))
  rintro ⟨t, ht, -, hlast⟩
  rw [ht] at hlate
  exact absurd hlast (Int.not_le.mpr (by simpa [Except.toOption] using hlate))

end ErrorStore

end Dissect
