/-
# Which settings file is read, and for how long

The settings file is the first that exists among six candidates: one in the directory of the
program, one in each of the four directories above it, and only then one in the working directory.
Above the root there is nothing else to search, so it does not matter how often the root is asked
(`findFile_eq`).

A candidate is there, or it is not, or the system refuses to say because its path is too long.  The
last is the only thing that keeps the search itself from an answer.  Where the file can be read, its
values answer every look-up that the environment leaves open, and they stay in force whatever
happens to the files, while the environment is asked anew each time (`settings_resolved`).
-/
import Dissect.Proofs.Diagnoses
import Dissect.Proofs.FileCreation
import Dissect.Proofs.StoredDocuments
import Dissect.Proofs.TolerantSettings
import Mathlib.Logic.Function.Iterate

namespace Dissect.Settings

open Files (Disk)
open Files.Disk (Nameable)
open Run (FailsAt)

variable {disk : Disk} {directory path program : Path} {paths rest : List Path}
variable {host other : Host} {values : Values}

/-! ## 1. The first path at which there is something -/

/-- There is something at the path. -/
def Present (disk : Disk) (path : Path) : Prop := disk.exists? path = .ok true

/-- What is there can be named. -/
theorem Present.named {disk : Disk} {path : Path} (h : Present disk path) :
    Disk.pathFault? path.text = none :=
  (Disk.check_true_iff.mp h).1

/-- There is nothing at the path. -/
def Absent (disk : Disk) (path : Path) : Prop := disk.exists? path = .ok false

/-- The path is among the paths, and there is nothing at those before it. -/
def First (disk : Disk) (paths : List Path) (path : Path) : Prop :=
  ∃ before after, paths = before ++ path :: after ∧ ∀ p ∈ before, Absent disk p

/-- Something is at a path, or nothing is, or the system refuses it. -/
theorem present_or_absent_or_refused (disk : Disk) (path : Path) :
    Present disk path ∨ Absent disk path ∨ disk.Refuses path := by
  unfold Present Absent
  cases h : disk.exists? path with
  | ok answer => cases answer <;> simp
  | error fault => exact .inr (.inr (Disk.check_error_iff.mp h).1)

theorem firstExisting_cons (disk : Disk) (path : Path) (rest : List Path) :
    firstExisting disk (path :: rest) =
      match disk.exists? path with
      | .error fault => .error fault
      | .ok true => .ok (some path)
      | .ok false => firstExisting disk rest := by
  rw [firstExisting]
  rcases disk.exists? path with fault | _ | _ <;> rfl

/-- Paths at which there is nothing are passed over. -/
theorem firstExisting_append {before : List Path} (h : ∀ p ∈ before, Absent disk p)
    (rest : List Path) : firstExisting disk (before ++ rest) = firstExisting disk rest := by
  induction before with
  | nil => rfl
  | cons p later ih =>
    have hp : disk.exists? p = .ok false := h p List.mem_cons_self
    rw [List.cons_append, firstExisting_cons, hp]
    exact ih fun q hq => h q (List.mem_cons_of_mem _ hq)

theorem firstExisting_present (h : First disk paths path) (hp : Present disk path) :
    firstExisting disk paths = .ok (some path) := by
  obtain ⟨before, after, rfl, habsent⟩ := h
  rw [firstExisting_append habsent, firstExisting_cons, hp]

theorem firstExisting_refused (h : First disk paths path) (hp : disk.Refuses path) :
    firstExisting disk paths = .error (Files.Errno.nameTooLong.fault path.text) := by
  obtain ⟨before, after, rfl, habsent⟩ := h
  have herror : disk.exists? path = .error (Files.Errno.nameTooLong.fault path.text) :=
    Disk.check_error_iff.mpr ⟨hp, rfl⟩
  rw [firstExisting_append habsent, firstExisting_cons, herror]

theorem firstExisting_absent (h : ∀ p ∈ paths, Absent disk p) :
    firstExisting disk paths = .ok none := by
  simpa [firstExisting] using firstExisting_append h []

/-- There is nothing at any of the paths, or one is the first at which that is not so. -/
theorem absent_or_first (disk : Disk) (paths : List Path) :
    (∀ p ∈ paths, Absent disk p) ∨
      ∃ path, First disk paths path ∧ (Present disk path ∨ disk.Refuses path) := by
  induction paths with
  | nil => exact .inl (by simp)
  | cons p rest ih =>
    rcases present_or_absent_or_refused disk p with hp | hp | hp
    · exact .inr ⟨p, ⟨[], rest, rfl, by simp⟩, .inl hp⟩
    · rcases ih with hrest | ⟨path, ⟨before, after, rfl, habsent⟩, hpath⟩
      · exact .inl (List.forall_mem_cons.mpr ⟨hp, hrest⟩)
      · exact .inr ⟨path, ⟨p :: before, after, rfl, List.forall_mem_cons.mpr ⟨hp, habsent⟩⟩, hpath⟩
    · exact .inr ⟨p, ⟨[], rest, rfl, by simp⟩, .inr hp⟩

/-- Names that may stand in a path make one that may be, joined by slashes. -/
theorem nameable_join : ∀ {parts : List String}, (∀ part ∈ parts, Nameable part) →
    Nameable (Text.join "/" parts)
  | [], _ => Disk.nameable_of_ascii (by simp [Text.join])
  | [part], h => by simpa [Text.join] using h part
  | part :: next :: rest, h => by
    have hjoin : Text.join "/" (part :: next :: rest) =
        part ++ "/" ++ Text.join "/" (next :: rest) := by simp [Text.join]
    have hslash : Nameable "/" := Disk.nameable_of_ascii (by decide)
    rw [hjoin]
    exact ((h part List.mem_cons_self).append hslash).append
      (nameable_join fun other hother => h other (List.mem_cons_of_mem _ hother))

/-- **The system refuses an absolute path** once its names and the slashes before them fill 4096
bytes. -/
theorem refuses_of_long (disk : Disk) {parts : List String} (hparts : parts ≠ [])
    (hnames : ∀ part ∈ parts, Nameable part)
    (hlong : Files.maxPathBytes ≤ (parts.map fun part => Text.endedSize part.toList).sum) :
    disk.Refuses ⟨.root, parts⟩ := by
  have htext : Path.text ⟨.root, parts⟩ = "/" ++ Text.join "/" parts := Path.text_of_parts hparts
  have hslash : Nameable "/" := Disk.nameable_of_ascii (by decide)
  have hsize : (Path.text ⟨.root, parts⟩).utf8ByteSize =
      (parts.map fun part => Text.endedSize part.toList).sum := by
    rw [htext, String.utf8ByteSize_append, ← Text.utf8ByteSize_join hparts, Nat.add_comm]
    rfl
  have hempty : Path.text ⟨.root, parts⟩ ≠ "" := by
    rw [htext]
    simp
  constructor
  · rw [htext]
    exact Disk.pathFault?_none_iff.mpr (hslash.append (nameable_join hnames))
  · simp only [Disk.stat, Disk.find, Disk.locate, if_neg hempty, hsize, if_pos hlong]
    rfl

/-! ## 2. The candidates -/

/-- The settings file of a directory. -/
def fileIn (directory : Path) : Path := directory.child ".env"

/-- The settings files of a directory and of those above it, as many as are asked for. -/
def filesAbove (count : Nat) (directory : Path) : List Path :=
  (List.range count).map fun i => fileIn (Path.parent^[i] directory)

/-- The candidates for the settings file of a program, in the order of the search. -/
def candidates (host : Host) (program : Path) : List Path :=
  filesAbove 5 program.parent ++ [fileIn ⟨.root, host.disk.cwd⟩]

theorem filesAbove_succ (count : Nat) (directory : Path) :
    filesAbove (count + 1) directory = fileIn directory :: filesAbove count directory.parent := by
  unfold filesAbove
  rw [List.range_succ_eq_map, List.map_cons, List.map_map]
  rfl

/-- The directories from a path up to the root: the path, and unless it is the root those from its
parent up. -/
theorem chain_eq_cons (directory : Path) :
    Disk.chain directory =
      directory :: if directory.parts = [] then [] else Disk.chain directory.parent := by
  obtain ⟨anchor, parts⟩ := directory
  rcases List.eq_nil_or_concat parts with rfl | ⟨front, last, rfl⟩
  · rfl
  · rw [List.concat_eq_append]
    have htake : ∀ k ∈ (List.range (front.length + 1)).reverse,
        (⟨anchor, (front ++ [last]).take k⟩ : Path) = ⟨anchor, front.take k⟩ := by
      intro k hk
      have hle : k ≤ front.length := by simpa [Nat.lt_succ_iff] using hk
      rw [List.take_append_of_le_length hle]
    simp only [Disk.chain, Path.parent, List.dropLast_concat, List.length_append,
      List.length_singleton]
    rw [if_neg (by simp), List.range_succ, List.reverse_append, List.reverse_singleton,
      List.map_append, List.map_singleton, List.map_congr_left htake,
      List.take_of_length_le (by simp)]
    rfl

theorem parent_root (h : directory.parts = []) : directory.parent = directory := by
  obtain ⟨anchor, parts⟩ := directory
  obtain rfl : parts = [] := h
  rfl

/-- From the root up there is only the root. -/
theorem filesAbove_root (h : directory.parts = []) (count : Nat) :
    ∀ p ∈ filesAbove count directory, p = fileIn directory := by
  intro p hp
  obtain ⟨i, -, rfl⟩ := List.mem_map.mp hp
  rw [Function.iterate_fixed (parent_root h)]

/-- **The search may stop at the root.**  Whether the root is asked once or again and again, the
first file that exists is the same. -/
theorem firstExisting_above (disk : Disk) (count : Nat) (directory : Path) (rest : List Path) :
    firstExisting disk (((Disk.chain directory).take count).map fileIn ++ rest) =
      firstExisting disk (filesAbove count directory ++ rest) := by
  induction count generalizing directory with
  | zero => simp [filesAbove]
  | succ count ih =>
    rw [filesAbove_succ, chain_eq_cons, List.take_succ_cons, List.map_cons, List.cons_append,
      List.cons_append, firstExisting_cons, firstExisting_cons]
    by_cases hroot : directory.parts = []
    · rcases hexists : disk.exists? (fileIn directory) with fault | _ | _
      · rfl
      · have habsent : ∀ p ∈ filesAbove count directory.parent, Absent disk p := by
          intro p hp
          rw [parent_root hroot] at hp
          rw [filesAbove_root hroot count p hp]
          exact hexists
        simp [hroot, firstExisting_append habsent]
      · rfl
    · rw [if_neg hroot, ih]

/-- The search is one for the first candidate that exists. -/
theorem findFile_eq (h : host.disk.resolve host.programFile = .ok program) :
    findFile host = firstExisting host.disk (candidates host program) := by
  have hdirectories : (searchedAbove program.parent ++ [(⟨.root, host.disk.cwd⟩ : Path)]).map
      (fun directory => directory.child ".env") =
        ((Disk.chain program.parent).take 5).map fileIn ++ [fileIn ⟨.root, host.disk.cwd⟩] := by
    rw [List.map_append]
    rfl
  unfold findFile
  rw [h]
  exact (congrArg _ hdirectories).trans (firstExisting_above host.disk 5 program.parent _)

/-! ## 3. What the file supplies -/

/-- What the settings file supplies: nothing if no candidate exists or the first that does cannot be
read, or else the values of its lines. -/
inductive Supplies (host : Host) : Values → Prop where
  | nothing {program : Path} (resolved : host.disk.resolve host.programFile = .ok program)
      (absent : ∀ p ∈ candidates host program, Absent host.disk p) : Supplies host []
  | unreadable {program path : Path} {e : Files.Errno}
      (resolved : host.disk.resolve host.programFile = .ok program)
      (first : First host.disk (candidates host program) path) (present : Present host.disk path)
      (unread : host.disk.read path.text = .error e) : Supplies host []
  | text {program path : Path} {data : Text.Bytes} {text : String}
      (resolved : host.disk.resolve host.programFile = .ok program)
      (first : First host.disk (candidates host program) path) (present : Present host.disk path)
      (read : host.disk.read path.text = .ok data) (decoded : Text.decode? data = .ok text) :
      Supplies host (valuesOf (linesOfText text))

/-- What keeps the settings file from supplying anything: the program's own path leads into a loop
or cannot be one, the first candidate that is not absent is refused by the system, or its bytes are
no text. -/
inductive Obstructed (host : Host) : Prop where
  | program {fault : Fault} (unresolved : host.disk.resolve host.programFile = .error fault)
  | refused {program path : Path} (resolved : host.disk.resolve host.programFile = .ok program)
      (first : First host.disk (candidates host program) path)
      (refused : host.disk.Refuses path)
  | garbled {program path : Path} (resolved : host.disk.resolve host.programFile = .ok program)
      (first : First host.disk (candidates host program) path) (present : Present host.disk path)
      (garbled : Garbled host path.text)

theorem supplies_or_obstructed (host : Host) :
    (∃ values, Supplies host values) ∨ Obstructed host := by
  cases hresolve : host.disk.resolve host.programFile with
  | error fault => exact .inr (.program hresolve)
  | ok program =>
    rcases absent_or_first host.disk (candidates host program) with
      habsent | ⟨path, hfirst, hpresent | hrefused⟩
    · exact .inl ⟨_, .nothing hresolve habsent⟩
    · cases hread : host.disk.read path.text with
      | error e => exact .inl ⟨_, .unreadable hresolve hfirst hpresent hread⟩
      | ok data =>
        cases hdata : Text.decode? data with
        | ok text => exact .inl ⟨_, .text hresolve hfirst hpresent hread hdata⟩
        | error e => exact .inr (.garbled hresolve hfirst hpresent ⟨data, e, hread, hdata⟩)
    · exact .inr (.refused hresolve hfirst hrefused)

/-- **What the file supplies is put in force.** -/
theorem Supplies.loads (h : Supplies host values) (hnone : host.settings = none) :
    ∃ loaded, Loads host loaded ∧ InForce values loaded := by
  unfold Loads
  rw [load_none hnone]
  cases h with
  | nothing resolved absent =>
    rw [findFile_eq resolved, firstExisting_absent absent]
    exact ⟨_, rfl, rfl⟩
  | unreadable resolved first present unread =>
    rw [findFile_eq resolved, firstExisting_present first present]
    simp only [valuesAt_unreadable present.named unread]
    exact ⟨_, rfl, rfl⟩
  | text resolved first present read decoded =>
    rw [findFile_eq resolved, firstExisting_present first present]
    simp only [valuesAt_text read decoded]
    exact ⟨_, rfl, rfl⟩

theorem Obstructed.load_fails (h : Obstructed host) (hnone : host.settings = none) :
    FailsAt (load false) host := by
  cases h with
  | program unresolved =>
    have hfind : ∃ fault, findFile host = .error fault := by
      unfold findFile
      rw [unresolved]
      exact ⟨_, rfl⟩
    obtain ⟨fault, hfault⟩ := hfind
    rw [FailsAt, load_none hnone, hfault]
    exact ⟨fault, rfl⟩
  | refused resolved first refused =>
    rw [FailsAt, load_none hnone, findFile_eq resolved, firstExisting_refused first refused]
    exact ⟨_, rfl⟩
  | @garbled program path resolved first present garbled =>
    have hfind : findFile host = .ok (some path) := by
      rw [findFile_eq resolved, firstExisting_present first present]
    exact (load_fails_iff_garbled hnone hfind).mpr ⟨path, rfl, garbled⟩

/-- **The file cannot be read exactly if it supplies nothing.** -/
theorem load_fails_iff (hnone : host.settings = none) :
    FailsAt (load false) host ↔ Obstructed host := by
  constructor
  · rintro ⟨fault, hfault⟩
    rcases supplies_or_obstructed host with ⟨values, hsupplies⟩ | hobstructed
    · obtain ⟨loaded, hloads, -⟩ := hsupplies.loads hnone
      rw [show (load false).exec host = (.ok (), loaded) from hloads] at hfault
      cases hfault
    · exact hobstructed
  · exact fun h => h.load_fails hnone

/-! ## 4. Look-ups and other events -/

/-- What may happen while the values are in force: look-ups of all kinds, and any change of the
environment or of the files and the working directory. -/
inductive Event where
  | lookUp (key : String) (default : Option String)
  | overview
  | configuration
  | environment (table : List (String × String))
  | files (disk : Disk)

/-- The host after an event. -/
def Event.run : Event → Host → Host
  | .lookUp key default, host => ((getD key default).exec host).2
  | .overview, host => (status.exec host).2
  | .configuration, host => (ToolConfiguration.ofSettings.exec host).2
  | .environment table, host => { host with environment := table }
  | .files disk, host => { host with disk }

/-- The environment after an event. -/
def Event.environmentAfter : Event → List (String × String) → List (String × String)
  | .environment table, _ => table
  | _, table => table

/-- The host after events. -/
def runEvents (events : List Event) (host : Host) : Host :=
  events.foldl (fun host event => event.run host) host

/-- The environment after events. -/
def environmentAfter (events : List Event) (table : List (String × String)) :
    List (String × String) :=
  events.foldl (fun table event => event.environmentAfter table) table

/-- No event takes the values out of force, and only a change of the environment changes it. -/
theorem Event.run_inForce (event : Event) (h : InForce values host) :
    InForce values (event.run host) ∧
      (event.run host).environment = event.environmentAfter host.environment := by
  cases event with
  | lookUp key default =>
    rw [Event.run, getD_inForce h]
    exact ⟨h, rfl⟩
  | overview =>
    rw [Event.run, status_inForce h]
    exact ⟨h, rfl⟩
  | configuration =>
    rw [Event.run, ofSettings_inForce h]
    exact ⟨h, rfl⟩
  | environment table => exact ⟨h, rfl⟩
  | files disk => exact ⟨h, rfl⟩

/-- **Values once read stay in force**, and the environment is what it was last changed to. -/
theorem runEvents_inForce (events : List Event) (h : InForce values host) :
    InForce values (runEvents events host) ∧
      (runEvents events host).environment = environmentAfter events host.environment := by
  induction events generalizing host with
  | nil => exact ⟨h, rfl⟩
  | cons event later ih =>
    obtain ⟨hforce, henvironment⟩ := event.run_inForce h
    obtain ⟨hlater, hlast⟩ := ih hforce
    refine ⟨hlater, ?_⟩
    rw [henvironment] at hlast
    exact hlast

/-- Every look-up is answered from the environment and the values: a setting by its value or the
default, the overview by the value of each setting and where it comes from, and the tool
configuration by the values of its settings. -/
structure Answers (values : Values) (host : Host) : Prop where
  setting : ∀ key default,
    ((getD key default).exec host).1 = .ok (((found host values key).map Prod.snd).or default)
  overview : (status.exec host).1 = .ok (keys.map fun (key, _) => ⟨key, found host values key⟩)
  configuration : (ToolConfiguration.ofSettings.exec host).1 =
    configurationOf host fun key => (found host values key).map Prod.snd

theorem InForce.answers (h : InForce values host) : Answers values host :=
  ⟨fun key default => by rw [getD_inForce h]; rfl, by rw [status_inForce h],
    by rw [ofSettings_inForce h]; rfl⟩

/-- Before the file is read the answers are those of afterwards. -/
theorem Answers.of_loads (hloads : Loads host other) (h : InForce values other) :
    Answers values host := by
  have hfound : found host values = found other values := by
    funext key
    unfold found
    rw [hloads.environmentValue key]
  have hconfiguration : configurationOf host = configurationOf other := by
    funext value
    unfold configurationOf
    simp only [hloads.pathOf]
  refine ⟨fun key default => ?_, ?_, ?_⟩
  · rw [((Reads.getD key default).agrees host other hloads).1, hfound]
    exact h.answers.setting key default
  · rw [(Reads.status.agrees host other hloads).1, hfound]
    exact h.answers.overview
  · rw [(Reads.ofSettings.agrees host other hloads).1, hfound, hconfiguration]
    exact h.answers.configuration

/-- **Settings are resolved in one way.**  Start with no values in force, on any disk, with the
program and the working directory anywhere and any environment.

A look-up fails exactly if the environment does not answer it and the settings file is obstructed:
the program's path cannot be resolved, the search comes to a path that the system refuses, or the
bytes of the file are no text.  The overview fails exactly if the file is obstructed.

Otherwise the file supplies values, namely those of the first candidate that exists, and each
look-up is answered from the environment first, then from these values, and then by the default.
The first look-up that has to, and the overview always, puts them in force.  From then on they
answer every look-up that the environment leaves open, whatever look-ups are made and however the
files, the working directory and the environment change in between; the environment is taken as it
is at that time. -/
theorem settings_resolved (host : Host) (hnone : host.settings = none) :
    (∀ key default, FailsAt (getD key default) host ↔
      host.environmentValue key = none ∧ Obstructed host) ∧
    (FailsAt status host ↔ Obstructed host) ∧
    (Obstructed host ↔ ¬∃ values, Supplies host values) ∧
    ∀ values, Supplies host values →
      Answers values host ∧
      ∃ loaded, InForce values loaded ∧ (status.exec host).2 = loaded ∧
        (∀ key default, ((getD key default).exec host).2 =
          if (host.environmentValue key).isSome then host else loaded) ∧
        ∀ events, Answers values (runEvents events loaded) ∧
          (runEvents events loaded).environment = environmentAfter events host.environment := by
  have hload := load_fails_iff hnone
  refine ⟨fun key default => by rw [getD_fails_iff, hload], by rw [status_fails_iff, hload], ?_, ?_⟩
  · constructor
    · rintro hobstructed ⟨values, hsupplies⟩
      obtain ⟨fault, hfault⟩ := hload.mpr hobstructed
      obtain ⟨loaded, hloads, -⟩ := hsupplies.loads hnone
      rw [show (load false).exec host = (.ok (), loaded) from hloads] at hfault
      cases hfault
    · exact fun hno => (supplies_or_obstructed host).resolve_left hno
  · intro values hsupplies
    obtain ⟨loaded, hloads, hforce⟩ := hsupplies.loads hnone
    refine ⟨Answers.of_loads hloads hforce, loaded, hforce, ?_, ?_, fun events => ?_⟩
    · unfold status
      rw [Run.exec_bind_ok hloads]
      rfl
    · intro key default
      unfold getD
      cases henv : host.environmentValue key with
      | some value =>
        rw [Run.exec_bind_ok (get?_environment henv)]
        rfl
      | none =>
        have hget : (get? key).exec host = (.ok (fileValue? loaded key), loaded) := by
          rw [get?_file henv, Run.exec_bind_ok hloads]
          rfl
        rw [Run.exec_bind_ok hget]
        rfl
    · obtain ⟨hlater, henvironment⟩ := runEvents_inForce events hforce
      refine ⟨hlater.answers, ?_⟩
      obtain ⟨_, _, rfl⟩ := hloads.eq
      exact henvironment

/-- The working directory is as deep as a path can tell, so the path of a settings file in it is too
long.  The look-up fails where it should have come to the default. -/
theorem settings_resolved_unless_refused :
    let name := String.ofList (List.replicate 92 'a')
    let host : Host := {
      disk := {
        tree := ⟨[(["program"], .file (.bytes []) 0o644)]⟩
        cwd := List.replicate 44 name } }
    FailsAt (getD "JAVA_TOOLS" (some "default")) host := by
  intro name host
  have hresolve : host.disk.resolve host.programFile = .ok ⟨.root, ["program"]⟩ :=
    Disk.resolve_name ⟨by decide, by decide⟩ (by decide +kernel) (by decide +kernel)
      (by decide +kernel)
  have habsent : Absent host.disk (fileIn ⟨.root, []⟩) := Run.ok_of_toOption (by decide +kernel)
  have hrefused : host.disk.Refuses (fileIn ⟨.root, host.disk.cwd⟩) := by
    have hname : Nameable name := Disk.nameable_of_ascii (by decide +kernel)
    have hsize : Text.endedSize name.toList = 93 := by decide +kernel
    have hpath : fileIn ⟨.root, host.disk.cwd⟩ = ⟨.root, List.replicate 44 name ++ [".env"]⟩ :=
      Path.child_plain ⟨.root, host.disk.cwd⟩ (by decide)
    rw [hpath]
    refine refuses_of_long host.disk (by simp) ?_ ?_
    · intro part hpart
      rcases List.mem_append.mp hpart with h | h
      · rw [List.eq_of_mem_replicate h]
        exact hname
      · rw [List.mem_singleton.mp h]
        exact Disk.nameable_of_ascii (by decide)
    · rw [List.map_append, List.map_replicate, List.sum_append, List.sum_replicate, hsize]
      decide
  have hfirst : First host.disk (candidates host ⟨.root, ["program"]⟩)
      (fileIn ⟨.root, host.disk.cwd⟩) := by
    refine ⟨filesAbove 5 ⟨.root, []⟩, [], rfl, fun p hp => ?_⟩
    rw [filesAbove_root rfl 5 p hp]
    exact habsent
  exact ((settings_resolved host rfl).1 "JAVA_TOOLS" (some "default")).mpr
    ⟨rfl, .refused hresolve hfirst hrefused⟩

end Dissect.Settings
