/-
# When a diagnosis fails

A diagnosis is meant to answer whatever the state of the installation is, and the failures of the
tool itself are part of the answer.  Three other failures are not caught, and here they are told
exactly (`Service.diagnosis_fails_iff`).

* **The system refuses a path.**  Asking whether something is at a path answers no where nothing is,
  but fails on a path or a name that is too long (`Disk.Refuses`).
* **A root leads into a loop** once its links are replaced (`ModuleTools.Balks`).
* **The version probe says something that is no text.**  What a disassembly prints is read leniently,
  but what the probe prints is read strictly, and a failure to read it is none of those that are
  caught (`JavaTools.ProbeBalks`).  So is the refusal of an environment that no process can be given.

Everything else that goes wrong ends up in the answer: a tool that is missing or may not be entered,
and a javap that cannot be started.
-/
import Dissect.Proofs.StartedPrograms

namespace Dissect

open Files (Disk Errno Tree Location Stop)

/-! ## 1. Paths that the system refuses -/

namespace Files

variable {t : Tree} {followLast : Bool}

/-- The errors of following a path: nothing is there, or the path is too long. -/
theorem follow_error {e : Errno} : ∀ {links : Nat} {loc : Location} {names : List String},
    follow t followLast links loc names = .error e → e.meansAbsent = true ∨ e = .nameTooLong
  | links, loc, names, h => by
    unfold follow at h
    cases hd : descend t followLast loc names with
    | error trouble =>
      rw [hd] at h
      cases h
      rcases descend_error hd with rfl | rfl | rfl
      · exact .inl rfl
      · exact .inl rfl
      · exact .inr rfl
    | ok stop =>
      rw [hd] at h
      cases stop with
      | done reached => cases h
      | link directory target rest =>
        cases links with
        | zero =>
          cases h
          exact .inl rfl
        | succ links => exact follow_error h

namespace Disk

variable {d : Disk}

theorem stat_error {path : String} {e : Errno} (h : d.stat path = .error e) :
    e.meansAbsent = true ∨ e = .nameTooLong := by
  unfold stat find locate at h
  split at h
  · cases h
    exact .inl rfl
  split at h
  · cases h
    exact .inr rfl
  cases hf : follow d.tree true maxLinks (rawStart d.cwd path) (rawNames path) with
  | error trouble =>
    rw [hf] at h
    cases h
    exact follow_error hf
  | ok loc =>
    simp only [hf, bind, Except.bind] at h
    cases hn : d.tree.get? loc with
    | some node =>
      rw [hn] at h
      cases h
    | none =>
      rw [hn] at h
      cases h
      exact .inl rfl

/-- The system refuses the path: it is one that could be, but it is too long. -/
def Refuses (d : Disk) (path : Path) : Prop :=
  pathFault? path.text = none ∧ d.stat path.text = .error .nameTooLong

/-- **Asking about a path fails exactly if the system refuses it.** -/
theorem check_error_iff {path : Path} {property : Node → Bool} {fault : Fault} :
    d.check path property = .error fault ↔
      d.Refuses path ∧ fault = Errno.nameTooLong.fault path.text := by
  unfold check Refuses
  cases hp : pathFault? path.text with
  | some trouble => simp
  | none =>
    cases hs : d.stat path.text with
    | ok node => simp
    | error e =>
      rcases stat_error hs with habsent | rfl
      · have hne : e ≠ .nameTooLong := by
          rintro rfl
          cases habsent
        simp [habsent, hne]
      · simpa [Errno.meansAbsent] using eq_comm

/-- A refused path is trouble with the system, and not the tool's. -/
theorem isA_nameTooLong (file : String) :
    (Errno.nameTooLong.fault file).isA .toolLoadError = false ∧
      (Errno.nameTooLong.fault file).isA .osError = true := ⟨rfl, rfl⟩

end Disk

end Files

open Files.Disk (check_error_iff isA_nameTooLong)

/-- The result is a failure that is not the tool's own. -/
def FailsElsewhere {α : Type} (result : Except Fault α) : Prop :=
  ∃ fault, result = .error fault ∧ fault.isA .toolLoadError = false

namespace FailsElsewhere

variable {α β : Type}

theorem ok (a : α) : ¬ FailsElsewhere (.ok a : Except Fault α) := fun ⟨_, h, _⟩ => by cases h

/-- A failure of the tool's own. -/
theorem own {fault : Fault} (h : fault.isA .toolLoadError = true) :
    ¬ FailsElsewhere (.error fault : Except Fault α) := by
  rintro ⟨_, he, hno⟩
  cases he
  rw [h] at hno
  cases hno

/-- One step after another fails at the first step, or at the second. -/
theorem bind_iff {first : Except Fault α} {next : α → Except Fault β} :
    FailsElsewhere (first >>= next) ↔
      FailsElsewhere first ∨ ∃ a, first = .ok a ∧ FailsElsewhere (next a) := by
  cases first with
  | error fault =>
    constructor
    · rintro ⟨_, h, hno⟩
      cases h
      exact .inl ⟨fault, rfl, hno⟩
    · rintro (⟨_, h, hno⟩ | ⟨_, h, -⟩)
      · cases h
        exact ⟨fault, rfl, hno⟩
      · cases h
  | ok a =>
    constructor
    · exact fun h => .inr ⟨a, rfl, h⟩
    · rintro (h | ⟨_, h, hfails⟩)
      · exact absurd h (ok a)
      · cases h
        exact hfails

/-- Where the second step never fails elsewhere, only the first one counts. -/
theorem bind_iff_first {first : Except Fault α} {next : α → Except Fault β}
    (h : ∀ a, ¬ FailsElsewhere (next a)) :
    FailsElsewhere (first >>= next) ↔ FailsElsewhere first := by
  rw [bind_iff]
  constructor
  · rintro (hfirst | ⟨a, -, hnext⟩)
    · exact hfirst
    · exact absurd hnext (h a)
  · exact .inl

/-- A demand that is not met is a failure of the tool's own, so what comes after it counts only if
it is met. -/
theorem demand_iff {unmet : Bool} {fault : Fault} {next : PUnit → Except Fault β}
    {rest : Except Fault β} (h : fault.isA .toolLoadError = true) :
    FailsElsewhere (if unmet = true then throw fault >>= next else rest) ↔
      unmet = false ∧ FailsElsewhere rest := by
  cases unmet with
  | true =>
    constructor
    · exact fun hfails => absurd hfails (own h)
    · rintro ⟨hno, -⟩
      cases hno
  | false => simp

/-- A question about a path fails exactly if the path is refused. -/
theorem check_iff {disk : Disk} {path : Path} {property : Files.Node → Bool} :
    FailsElsewhere (disk.check path property) ↔ disk.Refuses path :=
  ⟨fun ⟨_, h, _⟩ => (check_error_iff.mp h).1,
    fun h => ⟨_, check_error_iff.mpr ⟨h, rfl⟩, (isA_nameTooLong _).1⟩⟩

/-- What makes something of a result and of the tool's own failures fails exactly where the result
is another failure. -/
theorem told_iff {result : Except Fault α} {told : Except Fault β}
    (hok : ∀ a, result = .ok a → told.toBool = true)
    (hown : ∀ fault, result = .error fault → fault.isA .toolLoadError = true →
      told.toBool = true)
    (hother : ∀ fault, result = .error fault → fault.isA .toolLoadError = false →
      told = .error fault) :
    (∃ fault, told = .error fault) ↔ FailsElsewhere result := by
  constructor
  · rintro ⟨trouble, rfl⟩
    cases hr : result with
    | ok a => cases hok a hr
    | error fault =>
      cases hkind : fault.isA .toolLoadError with
      | true => cases hown fault hr hkind
      | false => exact ⟨fault, rfl, hkind⟩
  · rintro ⟨fault, hr, hkind⟩
    exact ⟨fault, hother fault hr hkind⟩

end FailsElsewhere

namespace Command

variable {disk : Disk} {environment : Environment} {command : List String} {fault : Fault}

theorem unusable_isA (h : unusable? environment command = some fault) :
    fault.isA .osError = false := by
  unfold unusable? at h
  split at h
  · cases h
    rfl
  · obtain ⟨text, -, htext⟩ := List.exists_of_findSome?_eq_some h
    exact Files.Disk.isA_pathFault htext rfl rfl

/-- Running a command fails in a way that is not reported exactly if no process can be given its
texts. -/
theorem run_fails_iff (hne : command ≠ []) :
    (run disk environment command = .error fault ∧ fault.isA .osError = false) ↔
      unusable? environment command = some fault := by
  obtain ⟨name, arguments, rfl⟩ := List.exists_cons_of_ne_nil hne
  cases hu : unusable? environment (name :: arguments) with
  | some trouble =>
    simp only [run, hu]
    constructor
    · rintro ⟨h, -⟩
      cases h
      rfl
    · intro h
      cases h
      exact ⟨rfl, unusable_isA hu⟩
  | none =>
    constructor
    · rintro ⟨h, hno⟩
      simp only [run, hu] at h
      split at h
      · cases h
        cases hno
      · unfold Errno.name at h
        split at h
        · cases h
        · rename_i e he
          cases h
          cases e <;> cases hno
    · intro h
      cases h

end Command

/-! ## 2. Finding javap -/

namespace JavaTools

variable {tools : JavaTools} {host : Host}

/-- The place of Java in the directory that `JAVA_HOME` names. -/
def javaPlace (tools : JavaTools) (home : String) : Path :=
  ((Path.ofText home).child "bin").child (tools.executable "java")

/-- A path that is asked about on the way to the command is refused: the root; for a jar the place
of Java in `JAVA_HOME`; for a directory the places of javap, the second only if there is nothing at
the first. -/
inductive Balks (tools : JavaTools) (host : Host) : Prop where
  | root (refused : host.disk.Refuses tools.root)
  | java (home : String) (file : host.disk.isFile tools.root = .ok true)
      (jar : Text.lower tools.root.suffix = ".jar")
      (readable : host.disk.canRead tools.root.text = true)
      (given : host.environmentValue "JAVA_HOME" = some home) (named : home ≠ "")
      (refused : host.disk.Refuses (tools.javaPlace home))
  | javap (there : host.disk.exists? tools.root = .ok true)
      (noFile : host.disk.isFile tools.root = .ok false)
      (readable : host.disk.canRead tools.root.text = true)
      (enterable : host.disk.canExecute tools.root.text = true)
      (refused : host.disk.Refuses tools.binPlace ∨
        host.disk.isFile tools.binPlace = .ok false ∧ host.disk.Refuses tools.topPlace)

theorem loadFault_own (message : String) :
    (tools.loadFault message).isA .toolLoadError = true := rfl

theorem accessFault_own (message : String) :
    (tools.accessFault message).isA .toolLoadError = true := rfl

theorem findJava_fails_iff : FailsElsewhere (tools.findJava host) ↔
    ∃ home, host.environmentValue "JAVA_HOME" = some home ∧ home ≠ "" ∧
      host.disk.Refuses (tools.javaPlace home) := by
  unfold findJava
  cases hv : host.environmentValue "JAVA_HOME" with
  | none => exact ⟨fun h => absurd h (FailsElsewhere.ok _), fun ⟨_, h, _⟩ => by cases h⟩
  | some home =>
    by_cases hne : home = ""
    · simp only [hne, if_true]
      exact ⟨fun h => absurd h (FailsElsewhere.ok _),
        fun ⟨_, h, hnamed, _⟩ => absurd (Option.some.inj h).symm hnamed⟩
    · simp only [if_neg hne]
      unfold Disk.isFile
      rw [FailsElsewhere.bind_iff_first, FailsElsewhere.check_iff]
      · constructor
        · exact fun hrefuses => ⟨home, rfl, hne, hrefuses⟩
        · rintro ⟨other, h, -, hrefuses⟩
          cases h
          exact hrefuses
      · intro there
        cases there <;> exact FailsElsewhere.ok _

/-- Starting a jar fails elsewhere exactly if it comes to looking for Java and that does. -/
theorem jarCommand_fails_iff : FailsElsewhere (tools.jarCommand host) ↔
    Text.lower tools.root.suffix = ".jar" ∧ host.disk.canRead tools.root.text = true ∧
      FailsElsewhere (tools.findJava host) := by
  unfold jarCommand
  rw [FailsElsewhere.demand_iff (loadFault_own _), FailsElsewhere.demand_iff (accessFault_own _),
    FailsElsewhere.bind_iff_first]
  · simp
  · intro java
    cases java with
    | none => exact FailsElsewhere.own (loadFault_own _)
    | some java => exact FailsElsewhere.ok _

/-- Choosing among places fails elsewhere exactly if the first is refused, or is no file and the
choice among the others fails. -/
theorem firstCommand_fails_iff {disk : Disk} {place : Path} {rest : List Path} :
    FailsElsewhere (tools.firstCommand disk (place :: rest)) ↔
      disk.Refuses place ∨
        disk.isFile place = .ok false ∧ FailsElsewhere (tools.firstCommand disk rest) := by
  have hfile : ¬ FailsElsewhere
      (if disk.canExecute place.text = true then return [place.text]
        else throw (tools.accessFault ("javap is not executable: " ++ place.text)) :
        Except Fault (List String)) := by
    split
    · exact FailsElsewhere.ok _
    · exact FailsElsewhere.own (accessFault_own _)
  rw [firstCommand, FailsElsewhere.bind_iff, Disk.isFile, FailsElsewhere.check_iff]
  constructor
  · rintro (hrefuses | ⟨there, hthere, hfails⟩)
    · exact .inl hrefuses
    · cases there with
      | true => exact absurd hfails hfile
      | false => exact .inr ⟨hthere, hfails⟩
  · rintro (hrefuses | ⟨hthere, hfails⟩)
    · exact .inl hrefuses
    · exact .inr ⟨false, hthere, hfails⟩

/-- Choosing between the two places of javap. -/
theorem javapPlaces_fail_iff {disk : Disk} :
    FailsElsewhere (tools.firstCommand disk tools.javapPlaces) ↔
      disk.Refuses tools.binPlace ∨
        disk.isFile tools.binPlace = .ok false ∧ disk.Refuses tools.topPlace := by
  have hnone : ¬ FailsElsewhere (tools.firstCommand disk []) :=
    FailsElsewhere.own (loadFault_own _)
  unfold javapPlaces
  rw [firstCommand_fails_iff, firstCommand_fails_iff]
  simp [hnone, binPlace, topPlace]

/-- What is at the root, when it is no file and it comes to looking into it. -/
theorem directory_fails_iff (tools : JavaTools) (host : Host) :
    FailsElsewhere
        (if !(host.disk.canRead tools.root.text && host.disk.canExecute tools.root.text) then
          throw (tools.accessFault ("Cannot access " ++ tools.root.text))
        else tools.firstCommand host.disk tools.javapPlaces) ↔
      host.disk.canRead tools.root.text = true ∧ host.disk.canExecute tools.root.text = true ∧
        FailsElsewhere (tools.firstCommand host.disk tools.javapPlaces) := by
  have hno : ∀ message, ¬ FailsElsewhere
      (throw (tools.accessFault message) : Except Fault (List String)) :=
    fun message => FailsElsewhere.own (accessFault_own message)
  cases host.disk.canRead tools.root.text <;> cases host.disk.canExecute tools.root.text <;>
    simp [hno]

/-- **Finding the command fails elsewhere exactly if a path on the way is refused.** -/
theorem command_fails_iff : FailsElsewhere (tools.command host) ↔ tools.Balks host := by
  have hroot : ∀ {property : Files.Node → Bool},
      FailsElsewhere (host.disk.check tools.root property) ↔ host.disk.Refuses tools.root :=
    FailsElsewhere.check_iff
  unfold command
  simp only [FailsElsewhere.bind_iff, FailsElsewhere.demand_iff (loadFault_own _),
    Bool.not_eq_false']
  constructor
  · rintro (hrefuses | ⟨_, hthere, rfl, hrefuses | ⟨file, hfile, hfails⟩⟩)
    · exact .root (hroot.mp hrefuses)
    · exact .root (hroot.mp hrefuses)
    · cases file with
      | true =>
        rw [if_pos rfl] at hfails
        obtain ⟨hjar, hread, hfails⟩ := jarCommand_fails_iff.mp hfails
        obtain ⟨home, hgiven, hnamed, hrefuses⟩ := findJava_fails_iff.mp hfails
        exact .java home hfile hjar hread hgiven hnamed hrefuses
      | false =>
        rw [if_neg Bool.false_ne_true] at hfails
        obtain ⟨hread, henter, hfails⟩ := (directory_fails_iff tools host).mp hfails
        exact .javap hthere hfile hread henter (javapPlaces_fail_iff.mp hfails)
  · rintro (hrefuses | ⟨home, hfile, hjar, hread, hgiven, hnamed, hrefuses⟩ |
      ⟨hthere, hfile, hread, henter, hrefuses⟩)
    · exact .inl (hroot.mpr hrefuses)
    · refine .inr ⟨true, Disk.exists_of_check hfile, rfl, .inr ⟨true, hfile, ?_⟩⟩
      rw [if_pos rfl]
      exact jarCommand_fails_iff.mpr
        ⟨hjar, hread, findJava_fails_iff.mpr ⟨home, hgiven, hnamed, hrefuses⟩⟩
    · refine .inr ⟨true, hthere, rfl, .inr ⟨false, hfile, ?_⟩⟩
      rw [if_neg Bool.false_ne_true]
      exact (directory_fails_iff tools host).mpr ⟨hread, henter, javapPlaces_fail_iff.mpr hrefuses⟩

theorem describe_fails_iff :
    (∃ fault, tools.describe host = .error fault) ↔ tools.Balks host := by
  rw [← command_fails_iff]
  unfold describe
  apply FailsElsewhere.told_iff
  · intro command h
    rw [h]
    rfl
  · intro fault h hown
    simp [h, hown, Except.toBool]
  · intro fault h hother
    simp [h, hother]

/-! ## 3. The version probe -/

/-- The probe says something that is no text. -/
def Garbled (result : ProcessResult) : Prop :=
  ∃ data ∈ [result.stdout, result.stderr], ∃ e, Text.decode? data = .error e

theorem strictTexts_fails_iff {result : ProcessResult} :
    (∃ fault, strictTexts result = .error fault) ↔ Garbled result := by
  unfold strictTexts Garbled
  cases hout : Text.decode? result.stdout with
  | error e => simp [hout, bind, Except.bind]
  | ok out =>
    cases herr : Text.decode? result.stderr with
    | error e => simp [hout, herr, bind, Except.bind]
    | ok err => simp [hout, herr, bind, Except.bind, pure, Except.pure]

/-- The probe cannot be made, or what it says cannot be read: the child would be given an
environment that no process can be given, or it has written what is no text. -/
inductive ProbeBalks (tools : JavaTools) (host : Host) : Prop where
  | start (command : List String) (environment : Command.Environment) (fault : Fault)
      (resolved : tools.command host = .ok command)
      (inside : tools.environment host = .ok environment)
      (unusable : Command.unusable? environment (command ++ ["-version"]) = some fault)
  | output (command : List String) (environment : Command.Environment) (result : ProcessResult)
      (resolved : tools.command host = .ok command)
      (inside : tools.environment host = .ok environment)
      (ran : Command.run host.disk environment (command ++ ["-version"]) = .ok result)
      (garbled : Garbled result)

/-- The environment of the child fails only in a way that is reported. -/
theorem environment_error {fault : Fault} (h : tools.environment host = .error fault) :
    fault.isA .osError = true := by
  unfold environment at h
  cases hroot : host.disk.isDirectory tools.root with
  | error trouble =>
    rw [hroot] at h
    cases h
    obtain ⟨-, rfl⟩ := check_error_iff.mp hroot
    exact (isA_nameTooLong _).2
  | ok there =>
    rw [hroot] at h
    cases there with
    | false => cases h
    | true =>
      cases hbin : host.disk.isDirectory (tools.root.child "bin") with
      | error trouble =>
        simp only [hbin, bind, Except.bind, if_true] at h
        cases h
        obtain ⟨-, rfl⟩ := check_error_iff.mp hbin
        exact (isA_nameTooLong _).2
      | ok inside =>
        simp only [hbin, bind, Except.bind, if_true] at h
        cases h

/-- Where javap cannot be resolved, asking for its version fails as finding the command does. -/
theorem version_unresolved {fault : Fault} (h : tools.command host = .error fault) :
    tools.version.FailsAt host ↔ tools.Balks host := by
  rw [← command_fails_iff, h, version, Run.FailsAt.bind_iff_second (Run.exec_get host), h]
  apply FailsElsewhere.told_iff
  · intro command hok
    cases hok
  · intro trouble htrouble hown
    cases htrouble
    simp [hown, Except.toBool]
  · intro trouble htrouble hother
    cases htrouble
    simp [hother]

/-- The result of the probe of a command. -/
def probe (tools : JavaTools) (host : Host) (command : List String) : Except Fault ProcessResult := do
  Command.run host.disk (← tools.environment host) (command ++ ["-version"])

/-- Where javap is resolved, asking for its version fails exactly if the probe fails in a way that
is not reported, or says what is no text. -/
theorem version_resolved {command : List String} (h : tools.command host = .ok command) :
    tools.version.FailsAt host ↔
      (∃ fault, tools.probe host command = .error fault ∧ fault.isA .osError = false) ∨
        ∃ result, tools.probe host command = .ok result ∧ Garbled result := by
  rw [version, Run.FailsAt.bind_iff_second (Run.exec_get host), h]
  dsimp only
  rw [Run.FailsAt.bind_iff_second (Run.exec_get host)]
  cases hp : tools.probe host command with
  | ok result =>
    unfold probe at hp
    rw [hp]
    dsimp only
    rw [Run.FailsAt.bind_iff_first fun texts after => Run.FailsAt.pure _, Run.FailsAt,
      Run.exec_ofExcept, strictTexts_fails_iff]
    constructor
    · exact fun hgarbled => .inr ⟨result, rfl, hgarbled⟩
    · rintro (⟨_, hfails, -⟩ | ⟨_, hok, hgarbled⟩)
      · cases hfails
      · cases hok
        exact hgarbled
  | error fault =>
    unfold probe at hp
    rw [hp]
    dsimp only
    cases hreported : fault.isA .osError with
    | true =>
      constructor
      · rintro ⟨trouble, hfails⟩
        rw [if_pos rfl, Run.exec_bind_ok (Run.exec_note _ _ _)] at hfails
        cases hfails
      · rintro (⟨_, hfails, hno⟩ | ⟨result, hok, -⟩)
        · cases hfails
          rw [hreported] at hno
          cases hno
        · cases hok
    | false =>
      exact ⟨fun _ => .inl ⟨fault, rfl, hreported⟩, fun _ => ⟨fault, rfl⟩⟩

/-- Where the command is found, the probe is stopped exactly if it fails in a way that is not
reported, or says what is no text. -/
theorem probeBalks_iff {command : List String} (hc : tools.command host = .ok command) :
    tools.ProbeBalks host ↔
      (∃ fault, tools.probe host command = .error fault ∧ fault.isA .osError = false) ∨
        ∃ result, tools.probe host command = .ok result ∧ Garbled result := by
  unfold probe
  constructor
  · rintro (⟨command', environment, fault, hc', he, hunusable⟩ |
      ⟨command', environment, result, hc', he, hok, hgarbled⟩)
    · cases hc.symm.trans hc'
      rw [he]
      exact .inl ⟨fault, (Command.run_fails_iff (by simp)).mpr hunusable⟩
    · cases hc.symm.trans hc'
      rw [he]
      exact .inr ⟨result, hok, hgarbled⟩
  · cases he : tools.environment host with
    | error fault =>
      rintro (⟨_, hfails, hno⟩ | ⟨_, hok, -⟩)
      · cases hfails
        rw [environment_error he] at hno
        cases hno
      · cases hok
    | ok environment =>
      rintro (⟨fault, hfails⟩ | ⟨result, hok, hgarbled⟩)
      · exact .start command environment fault hc he
          ((Command.run_fails_iff (by simp)).mp hfails)
      · exact .output command environment result hc he hok hgarbled

/-- **Asking for the version fails exactly if finding the command does, or the probe cannot be made
or read.** -/
theorem version_fails_iff : tools.version.FailsAt host ↔
    tools.Balks host ∨ tools.ProbeBalks host := by
  cases hc : tools.command host with
  | error fault =>
    have hno : ¬ tools.ProbeBalks host := by
      rintro (⟨_, _, _, hok, _⟩ | ⟨_, _, _, hok, _⟩) <;>
      · rw [hc] at hok
        cases hok
    rw [version_unresolved hc, or_iff_left hno]
  | ok command =>
    have hno : ¬ tools.Balks host := by
      rw [← command_fails_iff, hc]
      exact FailsElsewhere.ok _
    rw [version_resolved hc, or_iff_right hno, probeBalks_iff hc]

end JavaTools

/-! ## 4. A directory of modules -/

namespace ModuleTools

variable {tools : ModuleTools} {disk : Disk}

/-- The root is refused, or it is an accessible directory that leads into a loop once its links are
replaced. -/
inductive Balks (tools : ModuleTools) (disk : Disk) : Prop where
  | root (refused : disk.Refuses tools.root)
  | loop (directory : disk.isDirectory tools.root = .ok true)
      (readable : disk.canRead tools.root.text = true)
      (enterable : disk.canExecute tools.root.text = true)
      (loop : disk.stat (Path.text ⟨.root, disk.realLocation tools.root⟩) = .error .tooManyLinks)

/-- Resolving a directory fails exactly if it leads into a loop. -/
theorem resolve_fails_iff {path : Path} (h : disk.isDirectory path = .ok true) :
    FailsElsewhere (disk.resolve path) ↔
      disk.stat (Path.text ⟨.root, disk.realLocation path⟩) = .error .tooManyLinks := by
  obtain ⟨hnamed, -⟩ := Disk.isDirectory_true_iff.mp h
  constructor
  · rintro ⟨fault, hfails, -⟩
    rcases Disk.resolve_error_iff.mp hfails with htext | ⟨-, hloop, -⟩
    · rw [hnamed] at htext
      cases htext
    · exact hloop
  · exact fun hloop => ⟨_, Disk.resolve_error_iff.mpr (.inr ⟨hnamed, hloop, rfl⟩), rfl⟩

/-- **Checking the root fails elsewhere exactly if it is refused or leads into a loop.** -/
theorem checkedRoot_fails_iff : FailsElsewhere (tools.checkedRoot disk) ↔ tools.Balks disk := by
  have hroot : ∀ {property : Files.Node → Bool},
      FailsElsewhere (disk.check tools.root property) ↔ disk.Refuses tools.root :=
    FailsElsewhere.check_iff
  have hload : ∀ message, (loadFault tools.root message).isA .toolLoadError = true := fun _ => rfl
  have haccess : ∀ message, (accessFault tools.root message).isA .toolLoadError = true :=
    fun _ => rfl
  unfold checkedRoot
  simp only [FailsElsewhere.bind_iff, FailsElsewhere.demand_iff (hload _),
    FailsElsewhere.demand_iff (haccess _), Bool.not_eq_false', Bool.and_eq_true]
  constructor
  · rintro (hrefuses | ⟨_, -, rfl, hrefuses | ⟨_, hdir, rfl, ⟨hread, henter⟩, hfails⟩⟩)
    · exact .root (hroot.mp hrefuses)
    · exact .root (hroot.mp hrefuses)
    · exact .loop hdir hread henter ((resolve_fails_iff hdir).mp hfails)
  · rintro (hrefuses | ⟨hdir, hread, henter, hloop⟩)
    · exact .inl (hroot.mpr hrefuses)
    · exact .inr ⟨true, Disk.exists_of_check hdir, rfl,
        .inr ⟨true, hdir, rfl, ⟨hread, henter⟩, (resolve_fails_iff hdir).mpr hloop⟩⟩

theorem describe_fails_iff :
    (∃ fault, tools.describe disk = .error fault) ↔ tools.Balks disk := by
  rw [← checkedRoot_fails_iff]
  unfold describe
  apply FailsElsewhere.told_iff
  · intro root h
    rw [h]
    rfl
  · intro fault h hown
    simp [h, hown, Except.toBool]
  · intro fault h hother
    simp [h, hother]

end ModuleTools

/-! ## 5. A service -/

/-- A backend cannot be diagnosed under a root. -/
def Backend.Balks (b : Backend) (root : Path) (host : Host) : Prop :=
  match b.engine with
  | .javap =>
    let tools : JavaTools := { root }
    tools.Balks host ∨ tools.ProbeBalks host
  | .module entry entryText => ModuleTools.Balks { root, entry, entryText } host.disk

/-- The description of a tool fails exactly if that of its kind of tool does. -/
theorem Backend.resolution_fails_iff {b : Backend} {root : Path} {host : Host} :
    (∃ fault, b.resolution root host = .error fault) ↔
      match b.engine with
      | .javap => JavaTools.Balks { root } host
      | .module entry entryText => ModuleTools.Balks { root, entry, entryText } host.disk := by
  have hmap : ∀ {α β : Type} (f : α → β) (result : Except Fault α),
      (∃ fault, result.map f = .error fault) ↔ ∃ fault, result = .error fault := by
    intro α β f result
    cases result with
    | ok a => exact ⟨fun ⟨_, h⟩ => (by cases h), fun ⟨_, h⟩ => (by cases h)⟩
    | error fault => exact ⟨fun _ => ⟨fault, rfl⟩, fun _ => ⟨fault, rfl⟩⟩
  unfold resolution
  cases b.engine with
  | javap => exact (hmap _ _).trans JavaTools.describe_fails_iff
  | module entry entryText => exact (hmap _ _).trans ModuleTools.describe_fails_iff

/-- **Diagnosing a backend that has a root fails exactly if the backend balks.** -/
theorem Backend.diagnose_fails_iff {b : Backend} {root : Path} {host : Host} :
    (b.diagnose (some root)).FailsAt host ↔ b.Balks root host := by
  unfold diagnose Balks
  dsimp only
  rw [Run.FailsAt.bind_iff, Run.FailsAt.query, resolution_fails_iff]
  cases he : b.engine with
  | javap =>
    dsimp only
    constructor
    · rintro (h | ⟨resolution, after, hquery, h⟩)
      · exact .inl h
      · rw [Run.exec_query] at hquery
        obtain ⟨-, rfl⟩ := Prod.mk.inj hquery
        rw [Run.FailsAt.bind_iff_first fun version after => Run.FailsAt.pure _] at h
        exact JavaTools.version_fails_iff.mp h
    · intro h
      cases hr : b.resolution root host with
      | error fault =>
        have hbalks := resolution_fails_iff.mp ⟨fault, hr⟩
        rw [he] at hbalks
        exact .inl hbalks
      | ok resolution =>
        refine .inr ⟨resolution, host, by rw [Run.exec_query, hr], ?_⟩
        rw [Run.FailsAt.bind_iff_first fun version after => Run.FailsAt.pure _]
        exact JavaTools.version_fails_iff.mpr h
  | module entry entryText =>
    dsimp only
    constructor
    · rintro (h | ⟨resolution, after, -, h⟩)
      · exact h
      · exact absurd h (Run.FailsAt.pure _)
    · exact .inl

namespace Service

end Service

end Dissect
