/-
# Which program is started

A command that is started is the file at one path: the first of its candidates that can be started
(`Command.startedAt?`).  For javap in an installation directory there is as a rule one candidate
only, one of the two places in the installation, because its path has a slash in it.

The working directory itself is the exception.  A javap that stands right in it has a path without
a slash, so it is looked for along the search path of the child, and what is found there need not be
the file that was chosen.  It is not if the directory has a `bin` in which there is no javap, since
`bin` then heads the search path, and it is not if the chosen file cannot be started.  What runs then
comes from the search path of the host (`JavaTools.Strays`); in all other cases it is the javap of
the installation (`Service.starts_own_javap_unless_strays`).
-/
import Dissect.Proofs.Endings

namespace Dissect

open Files (Disk Node Errno)

/-! ## 1. The path at which a command is started -/

namespace Command

variable {disk : Disk} {environment : Environment} {name path : String}
variable {arguments command : List String} {result : ProcessResult}

/-- The path can be started under a name. -/
def canStart (disk : Disk) (environment : Environment) (name : String) (arguments : List String)
    (path : String) : Bool :=
  (start disk environment 5 path name arguments).toBool

/-- The path at which a command is started: the first of its candidates that can be. -/
def startedAt? (disk : Disk) (environment : Environment) : List String → Option String
  | [] => none
  | name :: arguments =>
    (candidates environment name).find? (canStart disk environment name arguments)

theorem canStart_ok (h : start disk environment 5 path name arguments = .ok result) :
    canStart disk environment name arguments path = true := by
  unfold canStart
  rw [h]
  rfl

theorem canStart_error {e : Errno}
    (h : start disk environment 5 path name arguments = .error e) :
    canStart disk environment name arguments path = false := by
  unfold canStart
  rw [h]
  rfl

/-- Trying paths in turn gives the result of the first that can be started. -/
theorem startFirst_ok {last : Errno} : ∀ {paths : List String} {remembered : Option Errno},
    startFirst disk environment name arguments remembered last paths = .ok result →
      ∃ path, paths.find? (canStart disk environment name arguments) = some path ∧
        start disk environment 5 path name arguments = .ok result
  | [], _, h => by cases h
  | path :: rest, remembered, h => by
    unfold startFirst at h
    cases hs : start disk environment 5 path name arguments with
    | ok started =>
      rw [hs] at h
      cases h
      exact ⟨path, by rw [List.find?_cons, canStart_ok hs], hs⟩
    | error e =>
      rw [hs] at h
      obtain ⟨found, hfound, hresult⟩ := startFirst_ok h
      exact ⟨found, by rw [List.find?_cons, canStart_error hs]; exact hfound, hresult⟩

/-- **A command that runs was started at a path**, and what it leaves is what the file there
leaves. -/
theorem startedAt_of_run (h : run disk environment command = .ok result) :
    ∃ name arguments path, command = name :: arguments ∧
      startedAt? disk environment command = some path ∧
      start disk environment 5 path name arguments = .ok result := by
  unfold run at h
  split at h
  · cases h
  · cases h
  · rename_i name arguments _
    split at h
    · cases h
    · obtain ⟨path, hpath, hresult⟩ := startFirst_ok (Import.name_ok h)
      exact ⟨name, arguments, path, rfl, hpath, hresult⟩

/-- A name with a slash in it stands for itself. -/
theorem candidates_of_slash (h : '/' ∈ name.toList) : candidates environment name = [name] := by
  unfold candidates
  rw [if_pos (List.contains_iff_mem.mpr h)]

/-- What is no file cannot be started. -/
theorem canStart_of_not_file {p : Path} (hfault : Disk.pathFault? p.text = none)
    (h : disk.isFile p = .ok false) :
    canStart disk environment name arguments p.text = false := by
  unfold Disk.isFile Disk.check at h
  rw [hfault] at h
  cases hs : disk.stat p.text with
  | error e => exact canStart_error (e := e) (by simp [start, hs, bind, Except.bind])
  | ok node =>
    rw [hs] at h
    refine canStart_error (e := .accessDenied) ?_
    cases node with
    | file content mode => cases h
    | _ => simp [start, hs, bind, Except.bind]

theorem startedAt_of_slash (h : '/' ∈ name.toList)
    (hs : startedAt? disk environment (name :: arguments) = some path) : path = name := by
  have hmem : path ∈ candidates environment name := List.mem_of_find?_eq_some hs
  rw [candidates_of_slash h] at hmem
  exact List.mem_singleton.mp hmem

end Command

/-! ## 2. The two places of javap -/

namespace JavaTools

variable {tools : JavaTools} {host : Host} {command arguments : List String}
variable {environment : Command.Environment} {path : String}

theorem executable_cases (tools : JavaTools) :
    tools.executable "javap" = "javap" ∨ tools.executable "javap" = "javap.exe" := by
  unfold executable
  split
  · exact .inr (by decide)
  · exact .inl rfl

theorem executable_plain (tools : JavaTools) : Path.IsPlain (tools.executable "javap") := by
  rcases tools.executable_cases with h | h <;> rw [h] <;> decide

/-- The file that is chosen: the first of the candidates that is a file. -/
theorem firstCommand_ok {disk : Disk} : ∀ {places : List Path},
    tools.firstCommand disk places = .ok command →
      ∃ before place after, places = before ++ place :: after ∧
        (∀ earlier ∈ before, disk.isFile earlier = .ok false) ∧ disk.isFile place = .ok true ∧
        command = [place.text]
  | [], h => by cases h
  | place :: rest, h => by
    unfold firstCommand at h
    obtain ⟨there, hf, h⟩ := ok_of_bind h
    cases there with
    | true =>
      simp only [if_true] at h
      split at h
      · cases h
        exact ⟨[], place, rest, rfl, fun _ hm => (by cases hm), hf, rfl⟩
      · cases h
    | false =>
      obtain ⟨before, chosen, after, hplaces, hbefore, hchosen, hcommand⟩ := firstCommand_ok h
      refine ⟨place :: before, chosen, after, by rw [hplaces]; rfl, ?_, hchosen, hcommand⟩
      intro earlier hm
      rcases List.mem_cons.mp hm with rfl | hm
      · exact hf
      · exact hbefore earlier hm

/-- The place of javap in the `bin` of an installation. -/
def binPlace (tools : JavaTools) : Path := (tools.root.child "bin").child (tools.executable "javap")

/-- The place of javap in the installation directory itself. -/
def topPlace (tools : JavaTools) : Path := tools.root.child (tools.executable "javap")

/-- **The javap that is chosen in a directory**: the one in `bin`, or else the one in the directory
itself. -/
theorem command_of_directory (hdir : host.disk.isDirectory tools.root = .ok true)
    (h : tools.command host = .ok command) :
    (host.disk.isFile tools.binPlace = .ok true ∧ command = [tools.binPlace.text]) ∨
      (host.disk.isFile tools.binPlace = .ok false ∧ host.disk.isFile tools.topPlace = .ok true ∧
        command = [tools.topPlace.text]) := by
  obtain ⟨hfile, hthere⟩ := Disk.isFile_of_isDirectory hdir
  have hfirst : tools.firstCommand host.disk tools.javapPlaces = .ok command := by
    unfold JavaTools.command at h
    simp only [hthere, hfile, bind, Except.bind, Bool.not_true, Bool.false_eq_true, if_false] at h
    split at h
    · cases h
    · exact h
  obtain ⟨before, place, after, hplaces, hbefore, hplace, hcommand⟩ := firstCommand_ok hfirst
  cases before with
  | nil =>
    obtain ⟨rfl, -⟩ := List.cons.inj hplaces
    exact .inl ⟨hplace, hcommand⟩
  | cons earlier before =>
    obtain ⟨rfl, hrest⟩ := List.cons.inj hplaces
    have hearlier := hbefore _ List.mem_cons_self
    cases before with
    | nil =>
      obtain ⟨rfl, -⟩ := List.cons.inj hrest
      exact .inr ⟨hearlier, hplace, hcommand⟩
    | cons _ _ => simp at hrest

theorem topPlace_parts (tools : JavaTools) :
    tools.topPlace = ⟨tools.root.anchor, tools.root.parts ++ [tools.executable "javap"]⟩ :=
  Path.child_plain _ tools.executable_plain

/-- A path with a directory before its last name has a slash in it. -/
theorem slash_mem_text {p : Path} (h : p ≠ ⟨.relative, []⟩) (name : String) :
    '/' ∈ (Path.text ⟨p.anchor, p.parts ++ [name]⟩).toList := by
  obtain ⟨anchor, parts⟩ := p
  rw [Path.text_of_parts (by simp), String.toList_append]
  cases anchor with
  | root => exact List.mem_append_left _ (show '/' ∈ Anchor.root.text.toList by decide)
  | doubleRoot => exact List.mem_append_left _ (show '/' ∈ Anchor.doubleRoot.text.toList by decide)
  | relative =>
    have hne : parts ≠ [] := by
      rintro rfl
      exact h rfl
    refine List.mem_append_right _ ?_
    simp only [Text.join]
    rw [String.intercalate_append_of_ne_nil hne (List.cons_ne_nil name [])]
    simp

theorem slash_mem_topPlace (h : tools.root ≠ ⟨.relative, []⟩) :
    '/' ∈ tools.topPlace.text.toList := by
  rw [topPlace_parts]
  exact slash_mem_text h _

theorem slash_mem_binPlace (tools : JavaTools) : '/' ∈ tools.binPlace.text.toList := by
  have hbin : Path.IsPlain "bin" := by decide
  unfold binPlace
  rw [Path.child_plain _ tools.executable_plain]
  refine slash_mem_text (fun he => ?_) _
  rw [Path.child_plain _ hbin] at he
  have hparts : tools.root.parts ++ ["bin"] = [] := congrArg Path.parts he
  simp at hparts

/-! ## 3. The search path of the child -/

/-- The search path of the host, if it has one that is not empty. -/
def hostSearchPath (host : Host) : String := (host.environmentValue "PATH").getD ""

/-- The places at which a name is looked for along the search path of the host. -/
def inheritedPlaces (host : Host) (name : String) : List String :=
  if hostSearchPath host = "" then []
  else (Text.splitAt (hostSearchPath host) ':').map (Command.inDirectory · name)

/-- The directory that heads the search path of the child: the `bin` of the installation, if there
is one. -/
def firstDirectory (tools : JavaTools) (inside : Bool) : Path :=
  if inside then tools.root.child "bin" else tools.root

theorem environment_of_directory (hdir : host.disk.isDirectory tools.root = .ok true)
    (h : tools.environment host = .ok environment) :
    ∃ inside, host.disk.isDirectory (tools.root.child "bin") = .ok inside ∧
      environment.lookup "PATH" =
        some (Text.join ":"
          ([(tools.firstDirectory inside).text, hostSearchPath host].filter (· != ""))) := by
  have hkept : (host.environment.filter fun entry => !leakyVariables.contains entry.1).lookup
      "PATH" = host.environment.lookup "PATH" :=
    Assoc.lookup_filter (fun name => !leakyVariables.contains name) "PATH" host.environment
  unfold JavaTools.environment at h
  obtain ⟨there, hthere, h⟩ := ok_of_bind h
  cases hdir.symm.trans hthere
  rw [if_pos rfl] at h
  obtain ⟨inside, hb, h⟩ := ok_of_bind h
  cases h
  refine ⟨inside, hb, ?_⟩
  rw [Assoc.lookup_set_self, hkept]
  rfl

/-- Where a name is looked for: in a first directory, then along the search path of the host. -/
theorem candidates_of_path {first name : String} (hfirst : first ≠ "") (hcolon : ':' ∉ first.toList)
    (hslash : '/' ∉ name.toList)
    (h : environment.lookup "PATH" =
      some (Text.join ":" ([first, hostSearchPath host].filter (· != "")))) :
    Command.candidates environment name =
      Command.inDirectory first name :: inheritedPlaces host name := by
  have hsearched : Text.splitAt
      (Text.join ":" ([first, hostSearchPath host].filter (· != ""))) ':' =
        first :: if hostSearchPath host = "" then [] else Text.splitAt (hostSearchPath host) ':' := by
    by_cases hp : hostSearchPath host = ""
    · simp [hp, hfirst, Text.join, Text.splitAt, Text.splitChars_of_not_mem hcolon]
    · have hjoin : (Text.join ":" [first, hostSearchPath host]).toList =
          first.toList ++ ':' :: (hostSearchPath host).toList := by
        simp [Text.join]
      simp [hp, hfirst, Text.splitAt, hjoin, Text.splitChars_append _ hcolon]
  unfold Command.candidates Command.searchDirectories inheritedPlaces
  rw [if_neg (fun hm => hslash (List.contains_iff_mem.mp hm)), h, Option.getD_some, hsearched,
    List.map_cons]
  split <;> rfl

/-! ## 4. The javap that is started -/

/-- Following a path that begins with a dot and a slash is following the rest. -/
theorem descend_dot_cons (t : Files.Tree) (followLast : Bool) (loc : Files.Location) (name : String)
    (rest : List String) :
    Files.descend t followLast loc ("." :: name :: rest) =
      Files.descend t followLast loc (name :: rest) := by
  cases hd : (t.get? loc).any Node.isDirectory with
  | true => exact Files.descend_dot hd
  | false => simp [Files.descend, hd]

/-- A javap in the working directory is the same with or without a dot and a slash before it. -/
theorem locate_here (tools : JavaTools) (disk : Disk) :
    disk.locate true ("./" ++ tools.executable "javap") =
      disk.locate true (tools.executable "javap") := by
  have hfollow : ∀ name : String,
      Files.follow disk.tree true Files.maxLinks disk.cwd [".", name] =
        Files.follow disk.tree true Files.maxLinks disk.cwd [name] := by
    intro name
    unfold Files.follow
    rw [descend_dot_cons]
  rcases tools.executable_cases with h | h <;> rw [h]
  · exact hfollow "javap"
  · exact hfollow "javap.exe"

/-- The working directory is the installation, javap stands right in it, and what the search path
of the child finds first is not that javap: there is a `bin` without a javap, or the javap cannot be
started. -/
structure Strays (tools : JavaTools) (host : Host) (environment : Command.Environment)
    (arguments : List String) : Prop where
  here : tools.root = ⟨.relative, []⟩
  top : host.disk.isFile tools.binPlace = .ok false
  missed : host.disk.isDirectory (tools.root.child "bin") = .ok true ∨
    Command.canStart host.disk environment (tools.executable "javap") arguments
      ("./" ++ tools.executable "javap") = false

/-- The path is that of a javap of the installation, as seen from the working directory. -/
def IsOwn (tools : JavaTools) (host : Host) (path : String) : Prop :=
  ∃ place ∈ tools.javapPlaces, host.disk.isFile place = .ok true ∧
    host.disk.locate true path = host.disk.locate true place.text

/-- The javap that stands right in the working directory is looked for along the search path. -/
theorem candidates_here (hroot : tools.root = ⟨.relative, []⟩)
    (hdir : host.disk.isDirectory tools.root = .ok true)
    (h : tools.environment host = .ok environment) :
    ∃ inside, host.disk.isDirectory (tools.root.child "bin") = .ok inside ∧
      Command.candidates environment tools.topPlace.text =
        (if inside then tools.binPlace.text else "./" ++ tools.executable "javap") ::
          inheritedPlaces host (tools.executable "javap") := by
  obtain ⟨inside, hinside, hpath⟩ := environment_of_directory hdir h
  have htop : tools.topPlace.text = tools.executable "javap" := by
    simp [topPlace_parts, hroot, Path.text, Anchor.text, Text.join]
  have hbin : tools.binPlace.text = Command.inDirectory "bin" (tools.executable "javap") := by
    rcases tools.executable_cases with he | he <;>
      simp only [binPlace, hroot, he] <;> decide
  have hdot : "./" ++ tools.executable "javap" =
      Command.inDirectory "." (tools.executable "javap") := by
    rcases tools.executable_cases with he | he <;> rw [he] <;> decide
  refine ⟨inside, hinside, ?_⟩
  rw [htop, hbin, hdot]
  have hslash := tools.executable_plain.2.2
  cases inside with
  | true =>
    have hfirst : (tools.firstDirectory true).text = "bin" := by
      simp only [firstDirectory, hroot]
      decide
    rw [hfirst] at hpath
    exact candidates_of_path (by decide) (by decide) hslash hpath
  | false =>
    have hfirst : (tools.firstDirectory false).text = "." := by
      simp only [firstDirectory, hroot]
      decide
    rw [hfirst] at hpath
    exact candidates_of_path (by decide) (by decide) hslash hpath

/-- Which javap is started where the installation is the working directory and javap stands right in
it: the one in `bin` cannot be, and so it is the one that stands there or an inherited one. -/
theorem startedAt_here (hroot : tools.root = ⟨.relative, []⟩)
    (hdir : host.disk.isDirectory tools.root = .ok true)
    (hnobin : host.disk.isFile tools.binPlace = .ok false)
    (hfile : host.disk.isFile tools.topPlace = .ok true)
    (henvironment : tools.environment host = .ok environment)
    (h : Command.startedAt? host.disk environment (tools.topPlace.text :: arguments) = some path) :
    (tools.Strays host environment arguments →
      path ∈ inheritedPlaces host (tools.executable "javap")) ∧
    (¬ tools.Strays host environment arguments → tools.IsOwn host path) := by
  obtain ⟨inside, hinside, hcandidates⟩ := candidates_here hroot hdir henvironment
  have htop : tools.topPlace ∈ tools.javapPlaces := List.mem_cons_of_mem _ List.mem_cons_self
  have hname : tools.topPlace.text = tools.executable "javap" := by
    simp [topPlace_parts, hroot, Path.text, Anchor.text, Text.join]
  have hfind : (Command.candidates environment tools.topPlace.text).find?
      (Command.canStart host.disk environment tools.topPlace.text arguments) = some path := h
  rw [hcandidates, hname, List.find?_cons] at hfind
  cases inside with
  | true =>
    have hfault : Disk.pathFault? tools.binPlace.text = none := by
      rcases tools.executable_cases with he | he <;>
        simp only [binPlace, hroot, he] <;> decide
    simp only [if_true, Command.canStart_of_not_file hfault hnobin] at hfind
    exact ⟨fun _ => List.mem_of_find?_eq_some hfind,
      fun hown => absurd ⟨hroot, hnobin, .inl hinside⟩ hown⟩
  | false =>
    simp only [Bool.false_eq_true, if_false] at hfind
    cases hstart : Command.canStart host.disk environment (tools.executable "javap") arguments
        ("./" ++ tools.executable "javap") with
    | true =>
      simp only [hstart, Option.some.injEq] at hfind
      subst hfind
      refine ⟨fun hstrays => ?_,
        fun _ => ⟨tools.topPlace, htop, hfile, by rw [locate_here, hname]⟩⟩
      rcases hstrays.missed with hthere | hmissed
      · rw [hinside] at hthere
        cases hthere
      · rw [hstart] at hmissed
        cases hmissed
    | false =>
      simp only [hstart] at hfind
      exact ⟨fun _ => List.mem_of_find?_eq_some hfind,
        fun hown => absurd ⟨hroot, hnobin, .inr hstart⟩ hown⟩

/-- **Which javap is started** for an installation directory: one of its own, unless the search
strays to the search path of the host. -/
theorem startedAt_of_directory (hdir : host.disk.isDirectory tools.root = .ok true)
    (hcommand : tools.command host = .ok command)
    (henvironment : tools.environment host = .ok environment)
    (h : Command.startedAt? host.disk environment (command ++ arguments) = some path) :
    (tools.Strays host environment arguments →
      path ∈ inheritedPlaces host (tools.executable "javap")) ∧
    (¬ tools.Strays host environment arguments → tools.IsOwn host path) := by
  rcases command_of_directory hdir hcommand with ⟨hfile, rfl⟩ | ⟨hnobin, hfile, rfl⟩
  · have hpath : path = tools.binPlace.text :=
      Command.startedAt_of_slash tools.slash_mem_binPlace h
    refine ⟨fun hstrays => ?_, fun _ => ⟨tools.binPlace, List.mem_cons_self, hfile, by rw [hpath]⟩⟩
    rw [hstrays.top] at hfile
    cases hfile
  · have htop : tools.topPlace ∈ tools.javapPlaces := List.mem_cons_of_mem _ List.mem_cons_self
    by_cases hroot : tools.root = ⟨.relative, []⟩
    · exact startedAt_here hroot hdir hnobin hfile henvironment h
    · have hpath : path = tools.topPlace.text :=
        Command.startedAt_of_slash (slash_mem_topPlace hroot) h
      exact ⟨fun hstrays => absurd hstrays.here hroot,
        fun _ => ⟨tools.topPlace, htop, hfile, by rw [hpath]⟩⟩

/-! ## 5. Disassembling and asking for the version -/

/-- A program is started for javap with the given arguments: on a host, in an environment, as the
file at a path. -/
def StartsAt (tools : JavaTools) (arguments : List String) (host : Host)
    (environment : Command.Environment) (path : String) : Prop :=
  ∃ command result, tools.command host = .ok command ∧ tools.environment host = .ok environment ∧
    Command.run host.disk environment (command ++ arguments) = .ok result ∧
    Command.startedAt? host.disk environment (command ++ arguments) = some path

/-- A command that runs is a program that is started. -/
theorem startsAt_of_run {result : ProcessResult} (hcommand : tools.command host = .ok command)
    (henvironment : tools.environment host = .ok environment)
    (hrun : Command.run host.disk environment (command ++ arguments) = .ok result) :
    ∃ path, tools.StartsAt arguments host environment path := by
  obtain ⟨name, rest, path, -, hpath, -⟩ := Command.startedAt_of_run hrun
  exact ⟨path, command, result, hcommand, henvironment, hrun, hpath⟩

/-- What the program is that is started, for an installation directory. -/
theorem own_of_startsAt (hdir : host.disk.isDirectory tools.root = .ok true)
    (h : tools.StartsAt arguments host environment path) :
    (tools.Strays host environment arguments →
      path ∈ inheritedPlaces host (tools.executable "javap")) ∧
    (¬ tools.Strays host environment arguments → tools.IsOwn host path) := by
  obtain ⟨command, result, hcommand, henvironment, -, hpath⟩ := h
  exact startedAt_of_directory hdir hcommand henvironment hpath

/-- A javap that tells its version was started. -/
theorem startsAt_of_version {told : String} (h : (tools.version.exec host).1 = .ok (some told)) :
    ∃ environment path, tools.StartsAt ["-version"] host environment path := by
  unfold version at h
  rw [Run.exec_bind_ok (Run.exec_get host)] at h
  cases hcommand : tools.command host with
  | error fault =>
    simp only [hcommand] at h
    split at h <;> cases h
  | ok command =>
    simp only [hcommand] at h
    rw [Run.exec_bind_ok (Run.exec_get host)] at h
    cases henvironment : tools.environment host with
    | error fault =>
      simp only [henvironment, bind, Except.bind] at h
      split at h <;> cases h
    | ok environment =>
      cases hrun : Command.run host.disk environment (command ++ ["-version"]) with
      | error fault =>
        simp only [henvironment, hrun, bind, Except.bind] at h
        split at h <;> cases h
      | ok result => exact ⟨environment, startsAt_of_run hcommand henvironment hrun⟩

end JavaTools

/-- A run of javap that ends normally started a program. -/
theorem Invocation.startsAt_of_invoke {b : Backend} {root resource : Path} {host : Host}
    (hengine : b.engine = .javap) (hsignals : b.signals = [Signal.cleanExit])
    (h : ((Invocation.invoke b root resource).exec host).1 = .ok ()) :
    ∃ environment path,
      ({ root } : JavaTools).StartsAt (b.argumentsFor resource) host environment path := by
  have hquery := Run.exec_query ({ root } : JavaTools).command host
  have hquery' := Run.exec_query ({ root } : JavaTools).environment host
  rw [invoke_eq, Backend.withEntry_javap hengine] at h
  unfold JavaTools.withEntry at h
  cases hcommand : ({ root } : JavaTools).command host with
  | error fault =>
    rw [hcommand] at hquery
    rw [Run.exec_bind_error hquery] at h
    cases h
  | ok command =>
    rw [hcommand] at hquery
    rw [Run.exec_bind_ok hquery] at h
    cases henvironment : ({ root } : JavaTools).environment host with
    | error fault =>
      rw [henvironment] at hquery'
      rw [Run.exec_bind_error hquery'] at h
      cases h
    | ok environment =>
      rw [henvironment] at hquery'
      rw [Run.exec_bind_ok hquery', watched_exec] at h
      cases hrun : Command.run host.disk environment (command ++ b.argumentsFor resource) with
      | ok result => exact ⟨environment, JavaTools.startsAt_of_run hcommand henvironment hrun⟩
      | error fault =>
        -- a program that cannot be started is no request to exit, so nothing excuses it
        have hordinary := Command.run_fails _ _ _ fault hrun
        have hcall : (Command.call command environment (b.argumentsFor resource)).exec host =
            (.error fault, host) :=
          Run.exec_bind_error (by rw [Run.exec_query, hrun])
        have hnone : Signal.find? [Signal.cleanExit] fault = none := by
          simp [Signal.find?, Signal.matches?, Signal.cleanExit, hordinary.not_exit]
        rw [hcall, hsignals] at h
        simp only [settle, hordinary.not_exit, Bool.false_eq_true, if_false, hnone] at h
        split at h <;> cases h

namespace Service

variable {s : Service} {unit : ClassUnit} {root : Path} {host : Host}

/-- A disassembly with javap that succeeds started a program. -/
theorem startsAt_of_success {outcome : Outcome} (hroot : s.configuration.toolPath = some root)
    (hinvoker : s.invoker = Invocation.invoke) (hbackend : s.backend = Backend.javap)
    (h : ((s.disassemble unit).exec host).1 = .ok outcome) (hkind : outcome.kind = .success) :
    ∃ resource made environment path, s.makeFile unit host = (.ok resource, made) ∧
      ({ root } : JavaTools).StartsAt (s.backend.argumentsFor resource.path) (toolStart made)
        environment path := by
  rw [disassemble_result hroot] at h
  obtain ⟨hending, -⟩ := success_of_verdict h hkind
  cases hmake : s.makeFile unit host with
  | mk result made =>
    rw [hmake] at hending
    cases result with
    | error fault => cases hending
    | ok resource =>
      have hinvoke : ((s.invoker s.backend root resource.path).exec (toolStart made)).1 = .ok () :=
        hending
      rw [hinvoker] at hinvoke
      obtain ⟨environment, path, hstarts⟩ := Invocation.startsAt_of_invoke
        (by rw [hbackend]; rfl) (by rw [hbackend]; rfl) hinvoke
      exact ⟨resource, made, environment, path, rfl, hstarts⟩

/-- **Which javap is started.**  Let javap be configured in a directory.  The program that a
disassembly or a version probe starts is then one of the two places of the installation, as seen
from the working directory, unless the search strays: the installation is the working directory,
javap stands right in it and not in its `bin`, and there is a `bin` or the javap cannot be started.
In that case, and only then, what is started was found along the search path of the host.  A
disassembly that succeeds and a probe that tells a version did start a program. -/
theorem starts_own_javap_unless_strays (s : Service) (unit : ClassUnit) (root : Path) (host : Host)
    (hroot : s.configuration.toolPath = some root) (hinvoker : s.invoker = Invocation.invoke)
    (hbackend : s.backend = Backend.javap) (hdir : host.disk.isDirectory root = .ok true) :
    let tools : JavaTools := { root }
    (∀ resource made environment path, s.makeFile unit host = (.ok resource, made) →
      let arguments := s.backend.argumentsFor resource.path
      tools.StartsAt arguments (toolStart made) environment path →
        (tools.Strays (toolStart made) environment arguments →
          path ∈ JavaTools.inheritedPlaces host "javap") ∧
        (¬ tools.Strays (toolStart made) environment arguments →
          tools.IsOwn (toolStart made) path)) ∧
    (∀ environment path, tools.StartsAt ["-version"] host environment path →
      (tools.Strays host environment ["-version"] →
        path ∈ JavaTools.inheritedPlaces host "javap") ∧
      (¬ tools.Strays host environment ["-version"] → tools.IsOwn host path)) ∧
    (∀ outcome, ((s.disassemble unit).exec host).1 = .ok outcome → outcome.kind = .success →
      ∃ resource made environment path, s.makeFile unit host = (.ok resource, made) ∧
        tools.StartsAt (s.backend.argumentsFor resource.path) (toolStart made) environment path) ∧
    ∀ told, (tools.version.exec host).1 = .ok (some told) →
      ∃ environment path, tools.StartsAt ["-version"] host environment path := by
  intro tools
  refine ⟨?_, fun environment path hstarts => JavaTools.own_of_startsAt hdir hstarts,
    fun outcome h hkind => startsAt_of_success hroot hinvoker hbackend h hkind,
    fun told h => JavaTools.startsAt_of_version h⟩
  intro resource made environment path hmake arguments hstarts
  obtain ⟨hkeeps, hcwd, -⟩ := Disposable.create_keeps_paths hmake
  have hdir' : (toolStart made).disk.isDirectory tools.root = .ok true :=
    Disk.isDirectory_keeps hkeeps hcwd hdir
  have hvariables : made.environment = host.environment := by
    have h := Disposable.create_keeps (P := fun now => now.environment = host.environment)
      (fun _ _ _ h => h) (fun _ _ _ h => h) (.bytes unit.data) s.configuration.tempDirectory
      (setLock true host) rfl
    have hafter : ((Disposable.create (.bytes unit.data) s.configuration.tempDirectory).exec
        (setLock true host)).2 = made := congrArg Prod.snd hmake
    rw [hafter] at h
    exact h
  have hplaces : JavaTools.inheritedPlaces (toolStart made) "javap" =
      JavaTools.inheritedPlaces host "javap" := by
    show JavaTools.inheritedPlaces made "javap" = _
    unfold JavaTools.inheritedPlaces JavaTools.hostSearchPath Host.environmentValue
    rw [hvariables]
  have h := JavaTools.own_of_startsAt hdir' hstarts
  rw [← hplaces]
  exact h

/-- A working directory with a javap of its own and an empty `bin`, on a host with another javap on
its search path.  The probe tells the version of the other one. -/
theorem starts_javap_from_elsewhere :
    let tools : JavaTools := { root := ⟨.relative, []⟩ }
    let here : Program := { stdout := Text.encode "here" }
    let elsewhere : Program := { stdout := Text.encode "elsewhere" }
    let host : Host := {
      disk := { tree := ⟨[(["javap"], .file (.program here) 0o755), (["bin"], .directory 0o755),
        (["other"], .directory 0o755), (["other", "javap"], .file (.program elsewhere) 0o755)]⟩ }
      environment := [("PATH", "/other")] }
    host.disk.isDirectory tools.root = .ok true ∧
      ∃ environment, tools.StartsAt ["-version"] host environment "/other/javap" := by
  intro tools here elsewhere host
  let s : Service := {
    backend := Backend.javap, configuration := { toolPath := some ⟨.relative, []⟩ } }
  have hdir : host.disk.isDirectory tools.root = .ok true := Run.ok_of_toOption (by decide +kernel)
  have htold : (tools.version.exec host).1 = .ok (some "elsewhere") :=
    Run.ok_of_toOption (by decide +kernel)
  have hplaces : JavaTools.inheritedPlaces host "javap" = ["/other/javap"] := by decide +kernel
  obtain ⟨-, hprobe, -, hstarts⟩ := starts_own_javap_unless_strays s ⟨[], "Foo"⟩ ⟨.relative, []⟩
    host rfl rfl rfl hdir
  obtain ⟨environment, path, hpath⟩ := hstarts "elsewhere" htold
  have hstrays : tools.Strays host environment ["-version"] :=
    ⟨rfl, Run.ok_of_toOption (by decide +kernel), .inl (Run.ok_of_toOption (by decide +kernel))⟩
  have hmem := (hprobe environment path hpath).1 hstrays
  rw [hplaces, List.mem_singleton] at hmem
  exact ⟨hdir, environment, hmem ▸ hpath⟩

end Service

end Dissect
