/-
# Settings in force

The settings file is read once, at the first look-up that the environment does not answer.  From
then on its values are in force, and no look-up changes the host any more: every look-up is a
function of the environment and of these values (`get?_inForce`, `status_inForce`,
`ofSettings_inForce`).

Whether the file is read now or has been read before makes no difference to what a look-up gives.
This is a relation between hosts, `Loads`: reading the file leads from the one to the other.  Every
step that does nothing but look up settings has one result on both (`Reads.agrees`), and goes no
further than from the one to the other (`Reads.ahead`).
-/
import Dissect.Proofs.SettingsFiles
import Dissect.Settings.Tool

namespace Dissect.Settings

open Run (FailsAt)

variable {α β : Type} {host other : Host} {values : Values} {key : String}

/-! ## 1. Values in force -/

/-- The values have been read. -/
def InForce (values : Values) (host : Host) : Prop := host.settings = some values

/-- The value of a setting and where it comes from: the environment, or else the values in force. -/
def found (host : Host) (values : Values) (key : String) : Option (Source × String) :=
  match host.environmentValue key with
  | some value => some (.environment, value)
  | none => (values.lookup key).map (.file, ·)

/-- The value of a setting. -/
def valueOf (host : Host) (values : Values) (key : String) : Option String :=
  (found host values key).map Prod.snd

theorem valueOf_eq (host : Host) (values : Values) (key : String) :
    valueOf host values key = (host.environmentValue key).or (values.lookup key) := by
  unfold valueOf found
  cases host.environmentValue key with
  | some value => rfl
  | none => cases values.lookup key <;> rfl

theorem load_inForce (h : InForce values host) : (load false).exec host = (.ok (), host) := by
  unfold load
  rw [Run.exec_bind_ok (Run.exec_get host), show host.settings = some values from h]
  rfl

/-- A setting that the environment has is not looked for anywhere else. -/
theorem get?_environment {value : String} (h : host.environmentValue key = some value) :
    (get? key).exec host = (.ok (some value), host) := by
  unfold get?
  rw [Run.exec_bind_ok (Run.exec_get host), h]
  rfl

/-- Any other setting is looked up once the file is read. -/
theorem get?_file (h : host.environmentValue key = none) :
    (get? key).exec host =
      (do load false; return fileValue? (← get) key : Run (Option String)).exec host := by
  unfold get?
  rw [Run.exec_bind_ok (Run.exec_get host), h]

theorem get?_inForce (h : InForce values host) (key : String) :
    (get? key).exec host = (.ok (valueOf host values key), host) := by
  rw [valueOf_eq]
  cases henv : host.environmentValue key with
  | some value => exact get?_environment henv
  | none =>
    rw [get?_file henv, Run.exec_bind_ok (load_inForce h), Run.exec_bind_ok (Run.exec_get host),
      fileValue?, show host.settings = some values from h]
    rfl

theorem getD_inForce (h : InForce values host) (key : String) (default : Option String) :
    (getD key default).exec host = (.ok ((valueOf host values key).or default), host) := by
  unfold getD
  rw [Run.exec_bind_ok (get?_inForce h key)]
  rfl

/-! ## 2. What look-ups make of the values -/

/-- The path that a value names, if it names one. -/
def pathOf (host : Host) : Option String → Except Fault (Option Path)
  | none => .ok none
  | some value =>
    if Text.strip value = "" then .ok none
    else (expandHome host (Path.ofText (Text.strip value))).map some

/-- A path is looked up as its value is. -/
theorem path_exec (key : String) (host : Host) :
    (Settings.path key).exec host =
      match (get? key).exec host with
      | (.ok value, after) => (pathOf after value, after)
      | (.error fault, after) => (.error fault, after) := by
  unfold Settings.path
  rw [Run.exec_bind]
  rcases (get? key).exec host with ⟨fault | _ | value, after⟩
  · rfl
  · rfl
  · by_cases hblank : Text.strip value = ""
    · simp [pathOf, hblank]
    · simp only [pathOf, hblank, if_false]
      rw [Run.exec_bind, Run.exec_query]
      cases expandHome after (Path.ofText (Text.strip value)) <;> rfl

/-- The tool configuration that settings describe. -/
def configurationOf (host : Host) (value : String → Option String) :
    Except Fault ToolConfiguration := do
  let toolPath ← pathOf host (value "JAVA_TOOLS")
  let tempDirectory ← pathOf host (value "CLASSVIEW_TEMP_DIR")
  return {
    toolPath, tempDirectory
    backend := Text.lower (Text.strip
      (ToolConfiguration.textOr (value "CLASSVIEW_DISASSEMBLER") "javap"))
    entryPoint := Text.strip
      (ToolConfiguration.textOr (value "CLASSVIEW_TOOL_ENTRY_POINT") EntryPoint.defaultText) }

theorem ofSettings_inForce (h : InForce values host) :
    ToolConfiguration.ofSettings.exec host =
      (configurationOf host (valueOf host values), host) := by
  have hpath (key : String) : (Settings.path key).exec host =
      (pathOf host (valueOf host values key), host) := by
    rw [path_exec, get?_inForce h]
  unfold ToolConfiguration.ofSettings configurationOf
  rw [Run.exec_bind, hpath]
  cases pathOf host (valueOf host values "JAVA_TOOLS") with
  | error fault => rfl
  | ok toolPath =>
    simp only
    rw [Run.exec_bind_ok (get?_inForce h _), Run.exec_bind_ok (get?_inForce h _), Run.exec_bind,
      hpath]
    cases pathOf host (valueOf host values "CLASSVIEW_TEMP_DIR") <;> rfl

/-- No setting is a secret, so each is shown as it is. -/
theorem mask_of_mem_keys (h : key ∈ keys.map Prod.fst) (value : String) :
    mask key value = value := by
  have hplain : ∀ key ∈ keys.map Prod.fst,
      secretMarks.any (Text.contains (Text.upper key)) = false := by decide +kernel
  simp [mask, hplain key h]

/-- **The overview tells of every setting what its look-up finds**, and where. -/
theorem status_inForce (h : InForce values host) :
    status.exec host = (.ok (keys.map fun (key, _) => ⟨key, found host values key⟩), host) := by
  unfold status
  rw [Run.exec_bind_ok (load_inForce h), Run.exec_bind_ok (Run.exec_get host)]
  refine congrArg (fun states => (Except.ok states, host)) (List.map_congr_left ?_)
  rintro ⟨key, purpose⟩ hmem
  have hshown : ∀ value, mask key value = value := mask_of_mem_keys (List.mem_map_of_mem hmem)
  unfold statusOf found fileValue?
  rw [show host.settings = some values from h, Option.getD_some]
  cases henv : host.environmentValue key with
  | some value => simp [henv, hshown]
  | none => cases hfile : values.lookup key <;> simp [henv, hfile, hshown]

/-! ## 3. Reading the file -/

/-- Reading the settings file, unless that has been done, leads from the one host to the other. -/
def Loads (host other : Host) : Prop := (load false).exec host = (.ok (), other)

/-- Reading a file writes to the log and does nothing else. -/
theorem valuesAt_host (path : String) (host : Host) :
    ∃ messages, ((valuesAt path).exec host).2 = warned host messages := by
  cases hread : host.disk.read path with
  | error e =>
    cases hnamed : Files.Disk.pathFault? path with
    | some fault => exact ⟨[], by rw [valuesAt_unnamed hnamed hread]; simp [warned]⟩
    | none => exact ⟨_, by rw [valuesAt_unreadable hnamed hread]⟩
  | ok data => exact ⟨_, by rw [valuesAt_readable hread]⟩

theorem load_none (h : host.settings = none) :
    (load false).exec host =
      match findFile host with
      | .error fault => (.error fault, host)
      | .ok none => (.ok (), { host with settings := some [] })
      | .ok (some path) =>
        match (valuesAt path.text).exec host with
        | (.error fault, after) => (.error fault, after)
        | (.ok values, after) => (.ok (), { after with settings := some values }) := by
  unfold load
  rw [Run.exec_bind_ok (Run.exec_get host), h]
  simp only [Option.isSome_none, Bool.false_and, Bool.false_eq_true, if_false]
  rw [Run.exec_bind, Run.exec_query]
  rcases findFile host with fault | _ | path
  · rfl
  · rfl
  · simp only
    rw [Run.exec_bind]
    rcases (valuesAt path.text).exec host with ⟨fault | values, after⟩ <;> rfl

namespace Loads

/-- Reading the file leads to a host with values in force, and apart from the log it leaves
everything else as it was. -/
theorem eq (h : Loads host other) :
    ∃ values log, other = { host with settings := some values, log } := by
  unfold Loads at h
  cases hset : host.settings with
  | some values =>
    rw [load_inForce hset] at h
    obtain rfl : host = other := (Prod.mk.inj h).2
    exact ⟨values, host.log, by rw [← hset]⟩
  | none =>
    rw [load_none hset] at h
    rcases hfind : findFile host with fault | _ | path
    · rw [hfind] at h
      cases h
    · rw [hfind] at h
      cases h
      exact ⟨[], host.log, rfl⟩
    · rw [hfind] at h
      obtain ⟨messages, hhost⟩ := valuesAt_host path.text host
      rcases hvalues : (valuesAt path.text).exec host with ⟨fault | values, after⟩
      · simp only [hvalues] at h
        cases h
      · simp only [hvalues] at h
        rw [hvalues] at hhost
        subst hhost
        cases h
        exact ⟨values, _, rfl⟩

theorem inForce (h : Loads host other) : ∃ values, InForce values other := by
  obtain ⟨values, log, rfl⟩ := h.eq
  exact ⟨values, rfl⟩

theorem environmentValue (h : Loads host other) (key : String) :
    host.environmentValue key = other.environmentValue key := by
  obtain ⟨values, log, rfl⟩ := h.eq
  rfl

/-- A file does not change where the users are at home. -/
theorem expandHome (h : Loads host other) : expandHome host = expandHome other := by
  obtain ⟨values, log, rfl⟩ := h.eq
  have hhome : homeOf { host with settings := some values, log } = homeOf host := rfl
  funext path
  unfold Settings.expandHome
  rw [hhome]

theorem pathOf (h : Loads host other) (value : Option String) :
    pathOf host value = pathOf other value := by
  cases value with
  | none => rfl
  | some value => rw [Settings.pathOf, Settings.pathOf, h.expandHome]

/-- The file is not read twice. -/
theorem again (h : Loads host other) : Loads other other := by
  obtain ⟨values, hforce⟩ := h.inForce
  exact load_inForce hforce

theorem unique {third : Host} (h : Loads host other) (h' : Loads host third) : other = third :=
  (Prod.mk.inj (h.symm.trans h')).2

end Loads

/-- What only looks at the host once the file is read has done no more than read it. -/
theorem Loads.of_bind {next : Unit → Run α} {a : α} {after : Host}
    (hn : ∀ middle, ((next ()).exec middle).2 = middle)
    (h : (load false >>= next).exec host = (.ok a, after)) : Loads host after := by
  rcases hload : (load false).exec host with ⟨fault | ⟨⟩, loaded⟩
  · rw [Run.exec_bind_error hload] at h
    cases h
  · rw [Run.exec_bind_ok hload] at h
    obtain rfl : loaded = after := by rw [← hn loaded, h]
    exact hload

/-! ## 4. Steps that look up settings -/

/-- The step looks up settings.  It has one result before and after the file is read, and if it
returns it has done no more than read the file. -/
structure Reads (step : Run α) : Prop where
  agrees : Run.Agrees Loads step
  ahead : ∀ host a after, step.exec host = (.ok a, after) → after = host ∨ Loads host after

namespace Reads

protected theorem pure (a : α) : Reads (Pure.pure a : Run α) :=
  ⟨.pure a, fun _ _ _ h => .inl (Prod.mk.inj h).2.symm⟩

protected theorem bind {step : Run α} {next : α → Run β} (hs : Reads step)
    (hn : ∀ a, Reads (next a)) : Reads (step >>= next) := by
  refine ⟨hs.agrees.bind fun a => (hn a).agrees, fun host b after h => ?_⟩
  rcases hstep : step.exec host with ⟨fault | a, middle⟩
  · rw [Run.exec_bind_error hstep] at h
    cases h
  · rw [Run.exec_bind_ok hstep] at h
    rcases hs.ahead host a middle hstep with rfl | hfirst
    · exact (hn a).ahead middle b after h
    · rcases (hn a).ahead middle b after h with rfl | hsecond
      · exact .inr hfirst
      · rw [← hfirst.again.unique hsecond]
        exact .inr hfirst

protected theorem query {f : Host → Except Fault α}
    (hf : ∀ host other, Loads host other → f host = f other) : Reads (Run.query f) := by
  refine ⟨.query hf, fun host a after h => ?_⟩
  rw [Run.exec_query] at h
  exact .inl (Prod.mk.inj h).2.symm

theorem get? (key : String) : Reads (Settings.get? key) := by
  constructor
  · intro host other h
    cases henv : host.environmentValue key with
    | some value =>
      rw [get?_environment henv, get?_environment (h.environmentValue key ▸ henv)]
      exact ⟨rfl, h⟩
    | none =>
      rw [get?_file henv, get?_file (h.environmentValue key ▸ henv), Run.exec_bind_ok h,
        Run.exec_bind_ok h.again]
      exact ⟨rfl, h.again⟩
  · intro host value after h
    cases henv : host.environmentValue key with
    | some found =>
      rw [get?_environment henv] at h
      exact .inl (Prod.mk.inj h).2.symm
    | none =>
      rw [get?_file henv] at h
      exact .inr (.of_bind (fun _ => rfl) h)

theorem getD (key : String) (default : Option String) : Reads (Settings.getD key default) :=
  (get? key).bind fun _ => .pure _

theorem path (key : String) : Reads (Settings.path key) := by
  refine (get? key).bind fun value => ?_
  rcases value with _ | value
  · exact .pure none
  · by_cases hblank : Text.strip value = ""
    · simpa [hblank] using Reads.pure none
    · simp only [hblank, if_false]
      exact (Reads.query fun host other h => by rw [h.expandHome]).bind fun _ => .pure _

theorem ofSettings : Reads ToolConfiguration.ofSettings :=
  (path _).bind fun _ => (get? _).bind fun _ => (get? _).bind fun _ =>
    (path _).bind fun _ => .pure _

theorem status : Reads Settings.status := by
  constructor
  · intro host other h
    unfold Settings.status
    rw [Run.exec_bind_ok h, Run.exec_bind_ok h.again]
    exact ⟨rfl, h.again⟩
  · exact fun host states after h => .inr (.of_bind (fun _ => rfl) h)

variable {step : Run α}

/-- What a step that has returned leaves behind makes no difference to another one. -/
theorem result_after {next : Run β} {a : α} {after : Host} (hs : Reads step) (hn : Reads next)
    (h : step.exec host = (.ok a, after)) : (next.exec after).1 = (next.exec host).1 := by
  rcases hs.ahead host a after h with rfl | hloads
  · rfl
  · exact (hn.agrees host after hloads).1.symm

/-- **One look-up after another fails** if either fails where the first one starts. -/
theorem bind_fails_iff {next : α → Run β} {P : Prop} (hs : Reads step) (hn : ∀ a, Reads (next a))
    (hnext : ∀ a, FailsAt (next a) host ↔ P) :
    FailsAt (step >>= next) host ↔ FailsAt step host ∨ P := by
  rw [FailsAt.bind_iff]
  by_cases hfirst : FailsAt step host
  · exact iff_of_true (.inl hfirst) (.inl hfirst)
  · obtain ⟨a, after, hstep⟩ := FailsAt.not_iff.mp hfirst
    have hafter : FailsAt (next a) after ↔ P := by
      rw [← hnext a, FailsAt, FailsAt, hs.result_after (hn a) hstep]
    constructor
    · rintro (h | ⟨a', after', hstep', h⟩)
      · exact absurd h hfirst
      · cases hstep.symm.trans hstep'
        exact .inr (hafter.mp h)
    · rintro (h | h)
      · exact absurd h hfirst
      · exact .inr ⟨a, after, hstep, hafter.mpr h⟩

end Reads

/-! ## 5. Where look-ups fail -/

/-- Looking at the host never fails. -/
theorem look_returns (f : Host → α) : ¬FailsAt (Run.look f) host := by
  rintro ⟨_, h⟩
  cases h

/-- A look-up fails exactly if the environment does not answer it and the file cannot be read. -/
theorem get?_fails_iff :
    FailsAt (get? key) host ↔ host.environmentValue key = none ∧ FailsAt (load false) host := by
  cases henv : host.environmentValue key with
  | some value => simp [FailsAt, get?_environment henv]
  | none =>
    have hload : FailsAt (do load false; return fileValue? (← get) key : Run (Option String)) host ↔
        FailsAt (load false) host :=
      FailsAt.bind_iff_first fun _ _ => look_returns (fileValue? · key)
    rw [FailsAt, get?_file henv, ← FailsAt, hload]
    simp

theorem getD_fails_iff {default : Option String} :
    FailsAt (getD key default) host ↔
      host.environmentValue key = none ∧ FailsAt (load false) host := by
  rw [← get?_fails_iff]
  exact FailsAt.bind_iff_first fun _ _ => FailsAt.pure _

/-- The overview always reads the file. -/
theorem status_fails_iff : FailsAt status host ↔ FailsAt (load false) host :=
  FailsAt.bind_iff_first fun _ _ => look_returns _

/-- The setting has a value, which starts with a home directory that is not known. -/
def Homeless (host : Host) (key : String) : Prop :=
  ∃ value, ((get? key).exec host).1 = .ok value ∧ ∃ fault, pathOf host value = .error fault

theorem path_fails_iff :
    FailsAt (Settings.path key) host ↔ FailsAt (get? key) host ∨ Homeless host key := by
  unfold FailsAt Homeless
  rw [path_exec]
  rcases hget : (get? key).exec host with ⟨fault | value, after⟩
  · exact iff_of_true ⟨fault, rfl⟩ (.inl ⟨fault, rfl⟩)
  · have hsame : pathOf after value = pathOf host value := by
      rcases (Reads.get? key).ahead host value after hget with rfl | hloads
      · rfl
      · exact (hloads.pathOf value).symm
    simp only [hsame]
    constructor
    · exact fun h => .inr ⟨value, rfl, h⟩
    · rintro (⟨_, h⟩ | ⟨value', hvalue, h⟩)
      · cases h
      · cases hvalue
        exact h

/-- The settings that make up the tool configuration. -/
def toolKeys : List String :=
  ["JAVA_TOOLS", "CLASSVIEW_DISASSEMBLER", "CLASSVIEW_TOOL_ENTRY_POINT", "CLASSVIEW_TEMP_DIR"]

/-- **The tool configuration fails** exactly if one of its four settings cannot be looked up, or one
of its two paths starts with a home directory that is not known. -/
theorem ofSettings_fails_iff :
    FailsAt ToolConfiguration.ofSettings host ↔
      (FailsAt (load false) host ∧ ∃ key ∈ toolKeys, host.environmentValue key = none) ∨
        Homeless host "JAVA_TOOLS" ∨ Homeless host "CLASSVIEW_TEMP_DIR" := by
  have hlast (next : Option Path → ToolConfiguration) :
      FailsAt (do return next (← Settings.path "CLASSVIEW_TEMP_DIR")) host ↔
        FailsAt (Settings.path "CLASSVIEW_TEMP_DIR") host :=
    FailsAt.bind_iff_first fun _ _ => FailsAt.pure _
  unfold ToolConfiguration.ofSettings
  rw [(Reads.path _).bind_fails_iff
      (fun _ => (Reads.get? _).bind fun _ => (Reads.get? _).bind fun _ =>
        (Reads.path _).bind fun _ => .pure _)
      fun _ => (Reads.get? _).bind_fails_iff
        (fun _ => (Reads.get? _).bind fun _ => (Reads.path _).bind fun _ => .pure _)
        fun _ => (Reads.get? _).bind_fails_iff (fun _ => (Reads.path _).bind fun _ => .pure _)
          fun _ => hlast _]
  simp only [path_fails_iff, get?_fails_iff, toolKeys, List.mem_cons, List.not_mem_nil, or_false,
    exists_eq_or_imp, exists_eq_left]
  grind

end Dissect.Settings
