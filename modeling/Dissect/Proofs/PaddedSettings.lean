/-
# Blanks around settings

Looking up settings reads the settings file at most once, so the tool configuration is a function of
the home directories and of what its four look-ups give on the host as it is (`ofSettings_result`).
A change of one value changes what its own look-up gives, if that, and no other one
(`Replaced.varied`).

So it remains to compare two values that are the same but for blanks around them.  Both name the
same path, or no path if there is nothing else in them.  The backend and the entry point have
defaults, and these are taken for an empty value, not for one that consists of blanks, although
nothing is left of it either once it is stripped.  This is the only difference that blanks make
(`padded_settings_agree_iff`).
-/
import Dissect.Proofs.DeafSteps
import Dissect.Proofs.SettingsSearch

namespace Dissect.Settings

open Run (FailsAt)

variable {α β : Type} {host other : Host} {key v w : String} {values : Values}

/-! ## 1. Values with blanks around them -/

/-- A path is told by the value without the blanks around it. -/
theorem pathOf_of_strip (host : Host) (h : Text.strip w = Text.strip v) :
    pathOf host (some w) = pathOf host (some v) := by
  rw [pathOf, pathOf, h]

/-- **A text is told by the value without the blanks around it**, unless of two values from which
nothing is left one is empty and the other is not.  It makes no difference what is done with the
text afterwards, as long as this keeps the default from the empty text. -/
theorem strip_textOr_eq_iff (default : String) (f : String → String)
    (hdefault : f (Text.strip default) ≠ f "") (h : Text.strip w = Text.strip v) :
    f (Text.strip (ToolConfiguration.textOr (some w) default)) =
        f (Text.strip (ToolConfiguration.textOr (some v) default)) ↔
      ¬(Text.strip v = "" ∧ ¬(v = "" ↔ w = "")) := by
  have hempty : Text.strip "" = "" := rfl
  unfold ToolConfiguration.textOr
  by_cases hv : v = "" <;> by_cases hw : w = ""
  · simp [hv, hw]
  · have hblank : Text.strip w = "" := by rw [h, hv, hempty]
    simpa [hv, hw, hempty, hblank] using hdefault.symm
  · have hblank : Text.strip v = "" := by rw [← h, hw, hempty]
    simpa [hv, hw, hblank] using hdefault
  · simp [hv, hw, h]

/-! ## 2. The configuration as a function of look-ups -/

/-- What the look-up of a setting gives. -/
def lookedUp (host : Host) (key : String) : Except Fault (Option String) :=
  ((get? key).exec host).1

/-- The tool configuration, from what its look-ups give. -/
def configurationBy (host : Host) (lookUp : String → Except Fault (Option String)) :
    Except Fault ToolConfiguration := do
  let toolPath ← lookUp "JAVA_TOOLS" >>= pathOf host
  let backend ← lookUp "CLASSVIEW_DISASSEMBLER"
  let entryPoint ← lookUp "CLASSVIEW_TOOL_ENTRY_POINT"
  let tempDirectory ← lookUp "CLASSVIEW_TEMP_DIR" >>= pathOf host
  return {
    toolPath, tempDirectory
    backend := Text.lower (Text.strip (ToolConfiguration.textOr backend "javap"))
    entryPoint := Text.strip (ToolConfiguration.textOr entryPoint EntryPoint.defaultText) }

/-- What one look-up after another gives is what each of them gives on the first host. -/
theorem Reads.bind_result {step : Run α} {next : α → Run β} (hs : Reads step)
    (hn : ∀ a, Reads (next a)) (host : Host) :
    ((step >>= next).exec host).1 = (step.exec host).1 >>= fun a => ((next a).exec host).1 := by
  rcases hstep : step.exec host with ⟨fault | a, after⟩
  · rw [Run.exec_bind_error hstep]
    rfl
  · rw [Run.exec_bind_ok hstep]
    exact hs.result_after (hn a) hstep

theorem path_result (key : String) (host : Host) :
    ((Settings.path key).exec host).1 = lookedUp host key >>= pathOf host := by
  rw [path_exec, lookedUp]
  rcases hget : (get? key).exec host with ⟨fault | value, after⟩
  · rfl
  · rcases (Reads.get? key).ahead host value after hget with rfl | hloads
    · rfl
    · exact (hloads.pathOf value).symm

/-- **The tool configuration is a function of its look-ups.** -/
theorem ofSettings_result (host : Host) :
    (ToolConfiguration.ofSettings.exec host).1 = configurationBy host (lookedUp host) := by
  unfold ToolConfiguration.ofSettings configurationBy
  rw [(Reads.path _).bind_result fun _ => (Reads.get? _).bind fun _ => (Reads.get? _).bind fun _ =>
    (Reads.path _).bind fun _ => .pure _, path_result]
  refine bind_congr fun toolPath => ?_
  rw [(Reads.get? _).bind_result fun _ => (Reads.get? _).bind fun _ =>
    (Reads.path _).bind fun _ => .pure _, ← lookedUp]
  refine bind_congr fun backend => ?_
  rw [(Reads.get? _).bind_result fun _ => (Reads.path _).bind fun _ => .pure _, ← lookedUp]
  refine bind_congr fun entryPoint => ?_
  rw [(Reads.path _).bind_result fun _ => .pure _, path_result]
  rfl

/-- The configuration with a backend, or else with an entry point, that is told by a value. -/
def withText (key : String) (value : Option String) (c : ToolConfiguration) : ToolConfiguration :=
  if key = "CLASSVIEW_DISASSEMBLER" then
    { c with backend := Text.lower (Text.strip (ToolConfiguration.textOr value "javap")) }
  else
    { c with entryPoint := Text.strip (ToolConfiguration.textOr value EntryPoint.defaultText) }

theorem withText_eq_iff (h : Text.strip w = Text.strip v) (c : ToolConfiguration) :
    withText key (some w) c = withText key (some v) c ↔
      ¬(Text.strip v = "" ∧ ¬(v = "" ↔ w = "")) := by
  have hbackend := strip_textOr_eq_iff "javap" Text.lower (by decide) h
  have hentryPoint := strip_textOr_eq_iff EntryPoint.defaultText id (by decide) h
  unfold withText
  split
  · rw [← hbackend]
    exact ⟨congrArg ToolConfiguration.backend, congrArg fun backend => { c with backend }⟩
  · rw [← hentryPoint]
    exact ⟨congrArg ToolConfiguration.entryPoint,
      congrArg fun entryPoint => { c with entryPoint }⟩

/-- **A text is kept as its own look-up tells it**, and the other look-ups do not touch it. -/
theorem configurationBy_text {lookUp lookUp' : String → Except Fault (Option String)}
    {value value' : Option String}
    (hkey : key = "CLASSVIEW_DISASSEMBLER" ∨ key = "CLASSVIEW_TOOL_ENTRY_POINT")
    (hothers : ∀ name, name ≠ key → lookUp' name = lookUp name)
    (hvalue : lookUp key = .ok value) (hvalue' : lookUp' key = .ok value') :
    configurationBy host lookUp' = (configurationBy host lookUp).map (withText key value') := by
  unfold configurationBy
  rcases hkey with rfl | rfl
  · rw [hothers "JAVA_TOOLS" (by decide), hothers "CLASSVIEW_TOOL_ENTRY_POINT" (by decide),
      hothers "CLASSVIEW_TEMP_DIR" (by decide), hvalue, hvalue']
    rcases lookUp "JAVA_TOOLS" >>= pathOf host with fault | toolPath
    · rfl
    rcases lookUp "CLASSVIEW_TOOL_ENTRY_POINT" with fault | entryPoint
    · rfl
    rcases lookUp "CLASSVIEW_TEMP_DIR" >>= pathOf host with fault | tempDirectory <;> rfl
  · rw [hothers "JAVA_TOOLS" (by decide), hothers "CLASSVIEW_DISASSEMBLER" (by decide),
      hothers "CLASSVIEW_TEMP_DIR" (by decide), hvalue, hvalue']
    rcases lookUp "JAVA_TOOLS" >>= pathOf host with fault | toolPath
    · rfl
    rcases lookUp "CLASSVIEW_DISASSEMBLER" with fault | backend
    · rfl
    rcases lookUp "CLASSVIEW_TEMP_DIR" >>= pathOf host with fault | tempDirectory <;> rfl

/-- A path counts for what it names. -/
theorem configurationBy_path {lookUp lookUp' : String → Except Fault (Option String)}
    (hkey : key = "JAVA_TOOLS" ∨ key = "CLASSVIEW_TEMP_DIR")
    (hothers : ∀ name, name ≠ key → lookUp' name = lookUp name)
    (hpath : lookUp' key >>= pathOf host = lookUp key >>= pathOf host) :
    configurationBy host lookUp' = configurationBy host lookUp := by
  unfold configurationBy
  rcases hkey with rfl | rfl
  · rw [hpath, hothers "CLASSVIEW_DISASSEMBLER" (by decide),
      hothers "CLASSVIEW_TOOL_ENTRY_POINT" (by decide), hothers "CLASSVIEW_TEMP_DIR" (by decide)]
  · rw [hpath, hothers "CLASSVIEW_DISASSEMBLER" (by decide),
      hothers "CLASSVIEW_TOOL_ENTRY_POINT" (by decide), hothers "JAVA_TOOLS" (by decide)]

/-! ## 3. Where look-ups find their values -/

theorem lookedUp_environment (h : host.environmentValue key = some v) :
    lookedUp host key = .ok (some v) := by
  rw [lookedUp, get?_environment h]

theorem lookedUp_inForce (h : InForce values host) (key : String) :
    lookedUp host key = .ok (valueOf host values key) := by
  rw [lookedUp, get?_inForce h]

theorem lookedUp_supplied (h : Supplies host values) (hnone : host.settings = none)
    (key : String) : lookedUp host key = .ok (valueOf host values key) := by
  obtain ⟨loaded, hloads, hforce⟩ := h.loads hnone
  rw [lookedUp, ((Reads.get? key).agrees host loaded hloads).1, ← lookedUp,
    lookedUp_inForce hforce, valueOf_eq, valueOf_eq, hloads.environmentValue]

theorem warn_beside {mine theirs : List (String × String)} (messages : List String) :
    (warn messages).Agrees (Beside mine theirs) := by
  intro host other h
  rw [warn_exec, warn_exec]
  exact ⟨rfl, h.map (f := fun host => warned host messages) (fun _ => rfl) fun _ _ => rfl⟩

theorem valuesAt_beside {mine theirs : List (String × String)} (path : String) :
    (valuesAt path).Agrees (Beside mine theirs) := by
  unfold valuesAt
  refine Run.Agrees.get_bind fun host other h => ?_
  have hread : other.disk.read path = host.disk.read path := by rw [h.disk]
  simp only [hread]
  cases host.disk.read path with
  | error e =>
    cases Files.Disk.pathFault? path with
    | some fault => exact Run.Agrees.throw fault host other h
    | none => exact ((Run.note_beside _ _).bind fun _ => .pure _) host other h
  | ok data =>
    refine ((warn_beside _).bind fun _ => ?_) host other h
    cases (linesOfBytes data).2 with
    | none => exact .pure _
    | some fault => exact .throw fault

/-- **The settings file is read without a look at the environment.** -/
theorem load_beside {mine theirs : List (String × String)} :
    (load false).Agrees (Beside mine theirs) := by
  have hforce (values : Values) : (modify fun host => { host with settings := some values } :
      Run PUnit).Agrees (Beside mine theirs) :=
    .modify fun _ _ h => h.map (f := fun host => { host with settings := some values })
      (fun _ => rfl) fun _ _ => rfl
  refine Run.Agrees.get_bind fun host other h => ?_
  have hsettings : other.settings = host.settings := by rw [h.other]
  rw [hsettings]
  cases host.settings with
  | some values => exact ⟨rfl, h⟩
  | none =>
    refine ((Run.query_beside fun _ _ => rfl).bind fun found => ?_) host other h
    cases found with
    | none => exact hforce []
    | some path => exact (valuesAt_beside path.text).bind hforce

/-- A look-up does not see the other variables. -/
theorem lookedUp_beside {environment : List (String × String)}
    (h : { host with environment }.environmentValue key = host.environmentValue key) :
    lookedUp { host with environment } key = lookedUp host key := by
  cases hvalue : host.environmentValue key with
  | some value =>
    rw [lookedUp_environment hvalue, lookedUp_environment (h.trans hvalue)]
  | none =>
    have hfile : (do load false; return fileValue? (← get) key : Run (Option String)).Agrees
        (Beside host.environment environment) :=
      load_beside.bind fun _ => .get_bind fun host other h => by
        have hsettings : other.settings = host.settings := by rw [h.other]
        exact ⟨by simp [fileValue?, hsettings], h⟩
    rw [lookedUp, lookedUp, get?_file hvalue, get?_file (h.trans hvalue)]
    exact (hfile host _ (Beside.refl host environment)).1.symm

/-- The last assignment to a key is the one to the key or one after it. -/
theorem lookup_valuesOf {lines : List (List Char)} {before after : Values}
    (h : assignedOn lines = before ++ (key, v) :: after) (name : String) :
    (valuesOf lines).lookup name =
      (after.reverse.lookup name).or
        (if name = key then some v else before.reverse.lookup name) := by
  rw [(valuesOf_lastAssigned lines).value, h, List.reverse_append, List.reverse_cons,
    List.append_assoc, List.lookup_append, List.singleton_append, List.lookup_cons]
  by_cases hname : name = key
  · simp [hname]
  · simp [hname, beq_false_of_ne hname]

/-! ## 4. The value of one setting replaced -/

/-- The value of a setting is replaced by another one: in the environment, among the values that
are in force, or, where no file has been read yet, in an assignment of the settings file. -/
inductive Replaced (key v w : String) (host : Host) : Host → Prop where
  | environment (has : host.environmentValue key = some v) :
      Replaced key v w host { host with environment := Assoc.set key w host.environment }
  | inForce {values : Values} (force : InForce values host) (has : values.lookup key = some v) :
      Replaced key v w host { host with settings := some (Assoc.set key w values) }
  | file {disk : Files.Disk} {lines lines' : List (List Char)} {before after : Values}
      (unread : host.settings = none) (supplies : Supplies host (valuesOf lines))
      (supplies' : Supplies { host with disk } (valuesOf lines'))
      (assigned : assignedOn lines = before ++ (key, v) :: after)
      (assigned' : assignedOn lines' = before ++ (key, w) :: after) :
      Replaced key v w host { host with disk }

/-- What the look-up of the setting gives is replaced, if that is what it gives at all, and nothing
else that the tool configuration depends on is changed. -/
structure Varied (key v w : String) (host other : Host) : Prop where
  home : pathOf other = pathOf host
  others : ∀ name, name ≠ key → lookedUp other name = lookedUp host name
  value : lookedUp other key = lookedUp host key ∨
    lookedUp host key = .ok (some v) ∧ lookedUp other key = .ok (some w)

/-- Where users are at home is told by three parts of the host. -/
theorem pathOf_of_homes (hhome : other.environmentValue "HOME" = host.environmentValue "HOME")
    (hown : other.ownHome = host.ownHome) (hhomes : other.homes = host.homes) :
    pathOf other = pathOf host := by
  have hof : homeOf other = homeOf host := by
    funext component
    rw [homeOf, homeOf, hhome, hown, hhomes]
  have hexpand : expandHome other = expandHome host := by
    funext path
    rw [expandHome, expandHome, hof]
  funext value
  cases value with
  | none => rfl
  | some value => rw [pathOf, pathOf, hexpand]

/-- The values that a look-up may find in the file, of which one has been replaced. -/
theorem varied_of_values {values values' : Values}
    (henvironment : other.environmentValue = host.environmentValue)
    (hown : other.ownHome = host.ownHome) (hhomes : other.homes = host.homes)
    (hlookedUp : ∀ name, lookedUp host name = .ok (valueOf host values name))
    (hlookedUp' : ∀ name, lookedUp other name = .ok (valueOf other values' name))
    (hothers : ∀ name, name ≠ key → values'.lookup name = values.lookup name)
    (hvalue : values'.lookup key = values.lookup key ∨
      values.lookup key = some v ∧ values'.lookup key = some w) : Varied key v w host other := by
  refine ⟨pathOf_of_homes (by rw [henvironment]) hown hhomes, fun name hname => ?_, ?_⟩
  · rw [hlookedUp, hlookedUp', valueOf_eq, valueOf_eq, henvironment, hothers name hname]
  · rw [hlookedUp, hlookedUp', valueOf_eq, valueOf_eq, henvironment]
    cases host.environmentValue key with
    | some value => exact .inl rfl
    | none =>
      simp only [Option.none_or]
      rcases hvalue with hsame | ⟨hv, hw⟩
      · exact .inl (by rw [hsame])
      · exact .inr ⟨by rw [hv], by rw [hw]⟩

/-- **Where one value is replaced, at most its own look-up gives another one.** -/
theorem Replaced.varied (hkey : key ≠ "HOME") (h : Replaced key v w host other) :
    Varied key v w host other := by
  cases h with
  | environment has =>
    have hset (name : String) (hname : name ≠ key) :
        (Assoc.set key w host.environment).lookup name = host.environmentValue name :=
      Assoc.lookup_set_of_ne hname w host.environment
    refine ⟨pathOf_of_homes (hset "HOME" hkey.symm) rfl rfl,
      fun name hname => lookedUp_beside (hset name hname), .inr ?_⟩
    exact ⟨lookedUp_environment has,
      lookedUp_environment (Assoc.lookup_set_self key w host.environment)⟩
  | @inForce values force has =>
    exact varied_of_values rfl rfl rfl (lookedUp_inForce force) (lookedUp_inForce rfl)
      (fun name hname => Assoc.lookup_set_of_ne hname w values)
      (.inr ⟨has, Assoc.lookup_set_self key w values⟩)
  | @file disk lines lines' before after unread supplies supplies' assigned assigned' =>
    refine varied_of_values rfl rfl rfl (lookedUp_supplied supplies unread)
      (lookedUp_supplied supplies' unread) (fun name hname => ?_) ?_
    · rw [lookup_valuesOf assigned, lookup_valuesOf assigned', if_neg hname, if_neg hname]
    · rw [lookup_valuesOf assigned, lookup_valuesOf assigned', if_pos rfl, if_pos rfl]
      -- An assignment after this one counts instead of it.
      cases after.reverse.lookup key with
      | some value => exact .inl rfl
      | none => exact .inr ⟨rfl, rfl⟩

/-! ## 5. Values that are the same but for blanks -/

/-- One of the two values is empty, the other one consists of blanks, and it is the value of a
setting for which a default is taken before the blanks are stripped.  The setting is looked up, and
the look-ups return. -/
structure Defaulted (key v w : String) (host other : Host) : Prop where
  setting : key = "CLASSVIEW_DISASSEMBLER" ∨ key = "CLASSVIEW_TOOL_ENTRY_POINT"
  blank : Text.strip v = ""
  different : ¬(v = "" ↔ w = "")
  found : lookedUp host key = .ok (some v) ∧ lookedUp other key = .ok (some w)
  returns : ¬FailsAt ToolConfiguration.ofSettings host

namespace Varied

theorem ofSettings_result (h : Varied key v w host other) :
    (ToolConfiguration.ofSettings.exec other).1 = configurationBy host (lookedUp other) := by
  rw [Settings.ofSettings_result]
  unfold configurationBy
  rw [h.home]

/-- If the look-up of the setting gives the same, so do all. -/
theorem unchanged (h : Varied key v w host other) (hsame : lookedUp other key = lookedUp host key) :
    (ToolConfiguration.ofSettings.exec other).1 = (ToolConfiguration.ofSettings.exec host).1 ∧
      ¬Defaulted key v w host other := by
  have hall : lookedUp other = lookedUp host := by
    funext name
    by_cases hname : name = key
    · rw [hname, hsame]
    · exact h.others name hname
  refine ⟨by rw [h.ofSettings_result, hall, Settings.ofSettings_result], fun hdefault => ?_⟩
  have hvalue := hdefault.found.2.symm.trans (hsame.trans hdefault.found.1)
  obtain rfl : w = v := Option.some.inj (Except.ok.inj hvalue)
  exact hdefault.different Iff.rfl

/-- A path is unchanged. -/
theorem path_eq (h : Varied key v w host other) (hstrip : Text.strip w = Text.strip v)
    (hsetting : key = "JAVA_TOOLS" ∨ key = "CLASSVIEW_TEMP_DIR")
    (hfound : lookedUp host key = .ok (some v) ∧ lookedUp other key = .ok (some w)) :
    (ToolConfiguration.ofSettings.exec other).1 = (ToolConfiguration.ofSettings.exec host).1 := by
  have hnames (value : Option String) :
      (Except.ok value >>= pathOf host : Except Fault (Option Path)) = pathOf host value := rfl
  rw [h.ofSettings_result, Settings.ofSettings_result]
  refine configurationBy_path hsetting h.others ?_
  rw [hfound.1, hfound.2, hnames, hnames, pathOf_of_strip host hstrip]

/-- A text is unchanged unless only one of the two values makes way for the default. -/
theorem text_eq_iff (h : Varied key v w host other) (hstrip : Text.strip w = Text.strip v)
    (hsetting : key = "CLASSVIEW_DISASSEMBLER" ∨ key = "CLASSVIEW_TOOL_ENTRY_POINT")
    (hfound : lookedUp host key = .ok (some v) ∧ lookedUp other key = .ok (some w)) :
    (ToolConfiguration.ofSettings.exec other).1 = (ToolConfiguration.ofSettings.exec host).1 ↔
      ¬Defaulted key v w host other := by
  have hhost : (ToolConfiguration.ofSettings.exec host).1 =
      (ToolConfiguration.ofSettings.exec host).1.map (withText key (some v)) := by
    rw [Settings.ofSettings_result]
    exact configurationBy_text hsetting (fun _ _ => rfl) hfound.1 hfound.1
  have hother : (ToolConfiguration.ofSettings.exec other).1 =
      (ToolConfiguration.ofSettings.exec host).1.map (withText key (some w)) := by
    rw [h.ofSettings_result, Settings.ofSettings_result]
    exact configurationBy_text hsetting h.others hfound.1 hfound.2
  rw [hother]
  cases hresult : (ToolConfiguration.ofSettings.exec host).1 with
  | error fault => exact iff_of_true rfl fun hdefault => hdefault.returns ⟨fault, hresult⟩
  | ok c =>
    rw [hresult] at hhost
    have hreturns : ¬FailsAt ToolConfiguration.ofSettings host := by
      rintro ⟨fault, hfault⟩
      rw [hresult] at hfault
      cases hfault
    have hdefault : Defaulted key v w host other ↔ Text.strip v = "" ∧ ¬(v = "" ↔ w = "") :=
      ⟨fun h => ⟨h.blank, h.different⟩, fun h => ⟨hsetting, h.1, h.2, hfound, hreturns⟩⟩
    rw [hdefault, ← withText_eq_iff hstrip c, ← Except.ok.inj hhost]
    exact ⟨Except.ok.inj, congrArg Except.ok⟩

end Varied

/-- **Blanks around the value of a setting do not count**, with one exception.  Replace a value by
one that is the same once it is stripped, so by its stripped form (`Text.strip_strip`) or by the
value with any blanks around it (`Text.strip_surrounded`), in the environment, in the settings file
or among the values in force.  The tool configuration is the same, or fails in the same way, unless
the setting is that of the backend or of the entry point, it is looked up, and one of the two values
is empty while the other consists of blanks. -/
theorem padded_settings_agree_iff (hkey : key ∈ toolKeys)
    (hstrip : Text.strip w = Text.strip v) (h : Replaced key v w host other) :
    (ToolConfiguration.ofSettings.exec other).1 = (ToolConfiguration.ofSettings.exec host).1 ↔
      ¬Defaulted key v w host other := by
  have hhome : key ≠ "HOME" := by
    rintro rfl
    revert hkey
    decide
  have hvaried := h.varied hhome
  rcases hvaried.value with hsame | hfound
  · obtain ⟨hresult, hno⟩ := hvaried.unchanged hsame
    exact iff_of_true hresult hno
  simp only [toolKeys, List.mem_cons, List.not_mem_nil, or_false] at hkey
  rcases hkey with hfirst | hbackend | hentryPoint | hlast
  · refine iff_of_true (hvaried.path_eq hstrip (.inl hfirst) hfound) fun hdefault => ?_
    exact absurd (hfirst ▸ hdefault.setting) (by decide)
  · exact hvaried.text_eq_iff hstrip (.inl hbackend) hfound
  · exact hvaried.text_eq_iff hstrip (.inr hentryPoint) hfound
  · refine iff_of_true (hvaried.path_eq hstrip (.inr hlast) hfound) fun hdefault => ?_
    exact absurd (hlast ▸ hdefault.setting) (by decide)

/-- The blanks that quotes keep around a path are stripped from it.  But a backend of blanks is not
the default, and once it is stripped it is. -/
theorem padded_settings_agree_unless_blank :
    let host (text : String) : Host := {
      disk := { tree := ⟨[([".env"], .file (.bytes (Text.encode text)) 0o644),
        (["program"], .file (.bytes []) 0o644)]⟩ } }
    let blank : Host := { host "" with
      environment := ("CLASSVIEW_DISASSEMBLER", "\u2003 ") :: toolKeys.map (·, "") }
    let stripped : Host := { blank with
      environment := Assoc.set "CLASSVIEW_DISASSEMBLER" (Text.strip "\u2003 ") blank.environment }
    (ToolConfiguration.ofSettings.exec (host "JAVA_TOOLS='  /opt/jdk\t' \nA=b")).1 =
      (ToolConfiguration.ofSettings.exec (host "JAVA_TOOLS=/opt/jdk\nA=b")).1 ∧
    (ToolConfiguration.ofSettings.exec stripped).1 ≠
      (ToolConfiguration.ofSettings.exec blank).1 := by
  intro host blank stripped
  have hsupplies (text : String) : Supplies (host text) (valuesOf (linesOfText text)) := by
    have hresolve : (host text).disk.resolve (host text).programFile = .ok ⟨.root, ["program"]⟩ :=
      Files.Disk.resolve_name ⟨by decide, by decide⟩ rfl rfl rfl
    have hpresent : Present (host text).disk (fileIn ⟨.root, []⟩) := rfl
    have hread : (host text).disk.read "/.env" = .ok (Text.encode text) := rfl
    exact .text hresolve ⟨[], _, rfl, by simp⟩ hpresent hread (Text.decode?_encode text)
  constructor
  · have hbare : assignedOn (linesOfText "JAVA_TOOLS=/opt/jdk\nA=b") =
        [] ++ ("JAVA_TOOLS", "/opt/jdk") :: [("A", "b")] := by decide +kernel
    have hquoted : assignedOn (linesOfText "JAVA_TOOLS='  /opt/jdk\t' \nA=b") =
        [] ++ ("JAVA_TOOLS", String.ofList [' ', ' '] ++ "/opt/jdk" ++ String.ofList ['\t']) ::
          [("A", "b")] := by decide +kernel
    have hreplaced : Replaced "JAVA_TOOLS" "/opt/jdk"
        (String.ofList [' ', ' '] ++ "/opt/jdk" ++ String.ofList ['\t'])
        (host "JAVA_TOOLS=/opt/jdk\nA=b") (host "JAVA_TOOLS='  /opt/jdk\t' \nA=b") :=
      .file rfl (hsupplies _) (hsupplies _) hbare hquoted
    refine (padded_settings_agree_iff (by decide)
      (Text.strip_surrounded (by decide) (by decide) _) hreplaced).mpr fun hdefault => ?_
    exact absurd hdefault.setting (by decide)
  · have hreplaced :
        Replaced "CLASSVIEW_DISASSEMBLER" "\u2003 " (Text.strip "\u2003 ") blank stripped :=
      .environment rfl
    have hreturns : ¬FailsAt ToolConfiguration.ofSettings blank := by
      rw [FailsAt, ofSettings_result]
      rintro ⟨fault, h⟩
      cases h
    have hdefaulted : Defaulted "CLASSVIEW_DISASSEMBLER" "\u2003 " (Text.strip "\u2003 ") blank
        stripped := ⟨.inl rfl, by decide, by decide, ⟨rfl, rfl⟩, hreturns⟩
    intro hsame
    exact (padded_settings_agree_iff (by decide) (Text.strip_strip _) hreplaced).mp hsame hdefaulted

end Dissect.Settings
