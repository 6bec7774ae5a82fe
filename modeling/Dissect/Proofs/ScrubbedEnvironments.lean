/-
# What reaches javap from the environment

Four variables of the host change how Java loads classes, and no child inherits them.  Every other
variable it has as the host has it, but for the search path, which an installation directory heads
(`JavaTools.environment_inherits`).

Nor do the four reach the tool in another way.  Of the environment, finding the command reads
`JAVA_HOME` and the search path, and everything else in a disassembly or a diagnosis is deaf to it.
So two hosts that differ in the four variables only see the same outcome and the same diagnosis, and
are left alike in everything but these variables (`Service.java_settings_do_not_reach_tool`).
-/
import Dissect.Proofs.DeafSteps
import Dissect.Proofs.StartedPrograms

namespace Dissect

open Files (Disk)

variable {α : Type} {mine theirs : List (String × String)} {host other : Host}

/-! ## 1. What a child inherits -/

namespace JavaTools

variable {tools : JavaTools} {environment child : Command.Environment} {name : String}

/-- The variables that a child may inherit. -/
def inherited (environment : Command.Environment) : Command.Environment :=
  environment.filter fun (name, _) => !leakyVariables.contains name

theorem lookup_inherited (name : String) (environment : Command.Environment) :
    (inherited environment).lookup name =
      if name ∈ leakyVariables then none else environment.lookup name := by
  have h : (inherited environment).lookup name = _ :=
    Assoc.lookup_filter (fun name => !leakyVariables.contains name) name environment
  rw [h]
  by_cases hleaky : name ∈ leakyVariables <;> simp [hleaky]

/-- The search path of a child that a directory heads: the host's follows it if there is one that is
not empty. -/
def headed (first : Path) (searchPath : Option String) : String :=
  match searchPath with
  | none => first.text
  | some rest => if rest = "" then first.text else first.text ++ ":" ++ rest

/-- The child has the variables of the host without the leaky ones.  For an installation directory
its search path is the host's behind the `bin` of the installation or, if there is no such
directory, behind the installation itself. -/
structure Inherits (tools : JavaTools) (disk : Disk) (environment child : Command.Environment) :
    Prop where
  scrubbed : ∀ name ∈ leakyVariables, child.lookup name = none
  kept : ∀ name, name ∉ leakyVariables → name ≠ "PATH" → child.lookup name = environment.lookup name
  directory : disk.isDirectory tools.root = .ok true →
    ∃ inside, disk.isDirectory (tools.root.child "bin") = .ok inside ∧
      child.lookup "PATH" =
        some (headed (tools.firstDirectory inside) (environment.lookup "PATH"))
  other : disk.isDirectory tools.root ≠ .ok true →
    child.lookup "PATH" = environment.lookup "PATH"

/-- The path of a directory is not empty. -/
theorem text_ne_empty_of_directory {disk : Disk} {path : Path}
    (h : disk.isDirectory path = .ok true) : path.text ≠ "" := by
  intro hempty
  obtain ⟨-, mode, hstat⟩ := Disk.isDirectory_true_iff.mp h
  rw [hempty] at hstat
  cases hstat

theorem join_headed {first : Path} (h : first.text ≠ "") (searchPath : Option String) :
    Text.join ":" ([first.text, searchPath.getD ""].filter (· != "")) =
      headed first searchPath := by
  cases searchPath with
  | none => simp [headed, h, Text.join]
  | some rest =>
    by_cases hrest : rest = ""
    · simp [headed, h, hrest, Text.join]
    · simp [headed, h, hrest, Text.join]

/-- **What a child inherits.** -/
theorem environment_inherits (h : tools.environment host = .ok child) :
    tools.Inherits host.disk host.environment child := by
  have hunset : ∀ name ∈ leakyVariables, (inherited host.environment).lookup name = none := by
    intro name hname
    rw [lookup_inherited, if_pos hname]
  have hset : ∀ name, name ∉ leakyVariables →
      (inherited host.environment).lookup name = host.environment.lookup name := by
    intro name hname
    rw [lookup_inherited, if_neg hname]
  unfold JavaTools.environment at h
  rcases hdir : host.disk.isDirectory tools.root with fault | _ | _
  · simp [hdir, bind, Except.bind] at h
  · rw [hdir] at h
    obtain rfl : inherited host.environment = child := Except.ok.inj h
    exact ⟨hunset, fun name hname _ => hset name hname, by simp [hdir],
      fun _ => hset "PATH" (by decide)⟩
  · rcases hbin : host.disk.isDirectory (tools.root.child "bin") with fault | inside
    · simp [hdir, hbin, bind, Except.bind] at h
    · have hfirst : (tools.firstDirectory inside).text ≠ "" := by
        cases inside with
        | true => exact text_ne_empty_of_directory hbin
        | false => exact text_ne_empty_of_directory hdir
      obtain rfl : Assoc.set "PATH" (Text.join ":" ([(tools.firstDirectory inside).text,
          ((inherited host.environment).lookup "PATH").getD ""].filter (· != "")))
          (inherited host.environment) = child := by
        rw [hdir] at h
        simp only [bind, Except.bind, if_true, hbin] at h
        exact Except.ok.inj h
      rw [join_headed hfirst, hset "PATH" (by decide)]
      refine ⟨fun name hname => ?_, fun name hname hpath => ?_, fun _ => ?_, by simp [hdir]⟩
      · have hpath : name ≠ "PATH" := by
          rintro rfl
          exact absurd hname (by decide)
        rw [Assoc.lookup_set_of_ne hpath, hunset name hname]
      · rw [Assoc.lookup_set_of_ne hpath, hset name hname]
      · exact ⟨inside, hbin, Assoc.lookup_set_self _ _ _⟩

/-! ## 2. What finding the tool reads -/

/-- A variable that children inherit is the same on hosts that differ in the leaky ones only. -/
theorem environmentValue_beside (hsame : inherited mine = inherited theirs)
    (h : Beside mine theirs host other) (hname : name ∉ leakyVariables) :
    host.environmentValue name = other.environmentValue name := by
  have hlookup := congrArg (List.lookup name) hsame
  rw [lookup_inherited, lookup_inherited, if_neg hname, if_neg hname] at hlookup
  obtain ⟨rfl, rfl⟩ := h
  exact hlookup

theorem findOnPath_of_inherited (hsame : inherited mine = inherited theirs)
    (h : Beside mine theirs host other) (name : String) :
    findOnPath host name = findOnPath other name := by
  unfold findOnPath
  rw [environmentValue_beside hsame h (by decide : "PATH" ∉ leakyVariables), h.disk]

/-- **Finding the command does not depend on the leaky variables.** -/
theorem command_of_inherited (tools : JavaTools) (hsame : inherited mine = inherited theirs)
    (h : Beside mine theirs host other) : tools.command host = tools.command other := by
  have hjava : tools.findJava host = tools.findJava other := by
    unfold findJava
    rw [environmentValue_beside hsame h (by decide : "JAVA_HOME" ∉ leakyVariables),
      findOnPath_of_inherited hsame h, h.disk]
  have hjar : tools.jarCommand host = tools.jarCommand other := by
    unfold jarCommand
    rw [hjava, h.disk]
  unfold command
  rw [hjar, h.disk]

/-- **Nor does the environment of the child.** -/
theorem environment_beside (tools : JavaTools) (hsame : inherited mine = inherited theirs)
    (h : Beside mine theirs host other) : tools.environment host = tools.environment other := by
  have hinherited : inherited host.environment = inherited other.environment := by
    obtain ⟨rfl, rfl⟩ := h
    exact hsame
  unfold inherited at hinherited
  unfold environment
  rw [hinherited, h.disk]

/-- A use of the tool that is alike for every command and every environment is alike. -/
theorem withEntry_beside (tools : JavaTools) (hsame : inherited mine = inherited theirs)
    {use : (List String → Run Unit) → Run α}
    (huse : ∀ command environment,
      (use (Command.call command environment)).Agrees (Beside mine theirs)) :
    (tools.withEntry use).Agrees (Beside mine theirs) :=
  (Run.Agrees.query fun _ _ h => tools.command_of_inherited hsame h).bind fun command =>
    (Run.Agrees.query fun _ _ h => tools.environment_beside hsame h).bind fun environment =>
      huse command environment

/-- Asking for the version. -/
theorem version_beside (tools : JavaTools) (hsame : inherited mine = inherited theirs) :
    tools.version.Agrees (Beside mine theirs) := by
  refine Run.Agrees.get_bind fun host other h => ?_
  rw [tools.command_of_inherited hsame h]
  cases tools.command other with
  | error fault =>
    simp only
    split
    · exact ⟨rfl, h⟩
    · exact ⟨rfl, h⟩
  | ok command =>
    refine Run.Agrees.get_bind (fun host other h => ?_) host other h
    rw [tools.environment_beside hsame h, h.disk]
    simp only
    split
    · exact ((Run.Agrees.ofExcept _).bind fun _ => Run.Agrees.pure _) host other h
    · split
      · exact ((Run.note_beside _ _).bind fun _ => Run.Agrees.pure _) host other h
      · exact ⟨rfl, h⟩

end JavaTools

/-! ## 3. Disassembling and diagnosing -/

open JavaTools (inherited)

theorem Invocation.invoke_beside {b : Backend} (hengine : b.engine = .javap) (root resource : Path)
    (hsame : inherited mine = inherited theirs) :
    (Invocation.invoke b root resource).Agrees (Beside mine theirs) := by
  unfold Invocation.invoke
  rw [Backend.withEntry_javap hengine]
  exact JavaTools.withEntry_beside _ hsame fun command environment =>
    (Command.call_beside command environment _).attempt.bind fun _ => Run.Agrees.ofExcept _

namespace Service

variable {s : Service}

theorem beginCapture_beside : beginCapture.Agrees (Beside mine theirs) := by
  refine Run.Agrees.get_bind fun host other h => ?_
  obtain ⟨hmine, rfl⟩ := h
  exact ⟨rfl, hmine, rfl⟩

theorem setGate_beside (active : Bool) (h : Beside mine theirs host other) :
    Beside mine theirs (setGate active host) (setGate active other) :=
  h.map (f := setGate active) (fun _ => rfl) fun _ _ => rfl

theorem setLock_beside (held : Bool) (h : Beside mine theirs host other) :
    Beside mine theirs (setLock held host) (setLock held other) :=
  h.map (f := setLock held) (fun _ => rfl) fun _ _ => rfl

theorem finishCapture_beside (id : Nat) (h : Beside mine theirs host other) :
    Beside mine theirs (finishCapture id host) (finishCapture id other) :=
  h.map (f := finishCapture id) (fun _ => rfl) fun _ _ => rfl

/-- The run of the tool, with the streams captured and the gate raised. -/
theorem runOn_beside (hengine : s.backend.engine = .javap)
    (hinvoker : s.invoker = Invocation.invoke) (hsame : inherited mine = inherited theirs)
    (root : Path) (resource : Disposable) :
    (s.runOn root resource).Agrees (Beside mine theirs) := by
  have htool : (s.invoker s.backend root resource.path).Agrees (Beside mine theirs) := by
    rw [hinvoker]
    exact Invocation.invoke_beside hengine root resource.path hsame
  refine Run.Agrees.ensuring (beginCapture_beside.bind fun id => ?_) fun _ _ h =>
    Disposable.discard_beside resource h
  refine (Run.Agrees.ensuring ?_ fun _ _ h => setGate_beside false (finishCapture_beside id h)).bind
    fun ending => Run.Agrees.get_bind fun host other h => ?_
  · exact ((Run.Agrees.modify fun _ _ h => setGate_beside true h).bind fun _ => htool).attempt
  · obtain ⟨hmine, rfl⟩ := h
    exact ⟨rfl, hmine, rfl⟩

theorem run_beside (hengine : s.backend.engine = .javap) (hinvoker : s.invoker = Invocation.invoke)
    (hsame : inherited mine = inherited theirs) (unit : ClassUnit) (root : Path) :
    (s.run unit root).Agrees (Beside mine theirs) := by
  refine (Disposable.create_beside _ _).attempt.bind fun result => ?_
  cases result with
  | error fault => exact Run.Agrees.pure _
  | ok resource => exact runOn_beside hengine hinvoker hsame root resource

theorem recordFailure_beside (s : Service) (unit : ClassUnit) (fault : Fault)
    (report : String → ErrorStore.Report) :
    (s.recordFailure unit fault report).Agrees (Beside mine theirs) := by
  unfold recordFailure
  cases s.store with
  | none => exact Run.Agrees.pure _
  | some store =>
    refine ((Run.Agrees.ofExcept _).bind fun _ => store.record_beside _ _).attempt.bind
      fun result => ?_
    cases result with
    | ok _ => exact Run.Agrees.pure _
    | error trouble =>
      simp only
      split
      · exact (Run.Agrees.ofExcept _).bind fun _ => Run.note_beside _ _
      · exact Run.Agrees.throw _

theorem handleFailure_beside (s : Service) (unit : ClassUnit) (root : Path) (captured : String)
    (fault : Fault) : (s.handleFailure unit root captured fault).Agrees (Beside mine theirs) := by
  refine (Run.Agrees.ofExcept _).bind fun outcome => Run.Agrees.bind ?_ fun _ =>
    (s.recordFailure_beside unit fault _).bind fun _ => Run.Agrees.pure _
  unfold noteFailure
  split
  · exact (Run.Agrees.ofExcept _).bind fun _ => Run.note_beside _ _
  · exact (Run.Agrees.ofExcept _).bind fun _ => Run.note_beside _ _

theorem conclude_beside (s : Service) (unit : ClassUnit) (root : Path) (finished : Finished) :
    (s.conclude unit root finished).Agrees (Beside mine theirs) := by
  unfold conclude
  split
  · exact Run.Agrees.pure _
  · split
    · exact s.handleFailure_beside unit root _ _
    · exact Run.Agrees.throw _

theorem disassemble_beside (hengine : s.backend.engine = .javap)
    (hinvoker : s.invoker = Invocation.invoke) (hsame : inherited mine = inherited theirs)
    (unit : ClassUnit) : (s.disassemble unit).Agrees (Beside mine theirs) := by
  unfold disassemble
  cases s.configuration.toolPath with
  | none => exact (Run.note_beside _ _).bind fun _ => Run.Agrees.pure _
  | some root =>
    refine (Run.Agrees.modify fun _ _ h => setLock_beside true h).bind fun _ => ?_
    exact ((run_beside hengine hinvoker hsame unit root).bind fun finished =>
      s.conclude_beside unit root finished).ensuring fun _ _ h => setLock_beside false h

theorem diagnose_beside (hengine : s.backend.engine = .javap)
    (hsame : inherited mine = inherited theirs) : s.diagnose.Agrees (Beside mine theirs) := by
  have htool : (s.backend.diagnose s.configuration.toolPath).Agrees (Beside mine theirs) := by
    unfold Backend.diagnose
    cases s.configuration.toolPath with
    | none => exact Run.Agrees.pure _
    | some root =>
      refine (Run.Agrees.query fun host other h => ?_).bind fun resolution => ?_
      · unfold Backend.resolution JavaTools.describe
        rw [hengine, JavaTools.command_of_inherited _ hsame h]
      · rw [hengine]
        exact (JavaTools.version_beside _ hsame).bind fun _ => Run.Agrees.pure _
  refine htool.bind fun tool => Run.Agrees.get_bind fun host other h => ?_
  obtain ⟨hmine, rfl⟩ := h
  exact ⟨rfl, hmine, rfl⟩

/-- What agrees on hosts beside each other has one result, and leaves hosts that nothing but their
environments tells apart. -/
theorem exec_of_agrees {step : Run α} {environment : List (String × String)}
    (h : step.Agrees (Beside host.environment environment)) :
    step.exec { host with environment } =
      ((step.exec host).1, { (step.exec host).2 with environment }) := by
  obtain ⟨hresult, -, hother⟩ := h host _ (Beside.refl host environment)
  exact Prod.ext hresult.symm hother

/-- **The host's Java settings do not reach javap.**  Take a service with javap, and two hosts that
differ in `CLASSPATH`, `JAVA_TOOL_OPTIONS`, `_JAVA_OPTIONS` and `JDK_JAVA_OPTIONS` only.

Every disassembly ends on both in the same result, and so does the diagnosis.  Afterwards the hosts
are the same but for these variables: the same disk, the same log, the same streams.

Every program that is started, for a disassembly or to ask for the version, is given the environment
of the host without the four.  Every other variable is as the host has it, except that for an
installation directory the search path begins with its `bin`, or with the directory itself if it has
none, and goes on with the host's if that is set and not empty. -/
theorem java_settings_do_not_reach_tool (s : Service) (host : Host)
    (environment : List (String × String)) (hengine : s.backend.engine = .javap)
    (hinvoker : s.invoker = Invocation.invoke)
    (hsame : inherited host.environment = inherited environment) :
    (∀ unit, (s.disassemble unit).exec { host with environment } =
      (((s.disassemble unit).exec host).1,
        { ((s.disassemble unit).exec host).2 with environment })) ∧
    s.diagnose.exec { host with environment } =
      ((s.diagnose.exec host).1, { (s.diagnose.exec host).2 with environment }) ∧
    ∀ root, s.configuration.toolPath = some root →
      (∀ unit resource made child path, s.makeFile unit host = (.ok resource, made) →
        ({ root } : JavaTools).StartsAt (s.backend.argumentsFor resource.path) (toolStart made)
          child path →
        ({ root } : JavaTools).Inherits (toolStart made).disk host.environment child) ∧
      ∀ child path, ({ root } : JavaTools).StartsAt ["-version"] host child path →
        ({ root } : JavaTools).Inherits host.disk host.environment child := by
  refine ⟨fun unit => exec_of_agrees (disassemble_beside hengine hinvoker hsame unit),
    exec_of_agrees (diagnose_beside hengine hsame), fun root _ => ⟨?_, ?_⟩⟩
  · rintro unit resource made child path hmake ⟨command, result, -, hchild, -⟩
    have hmade : made.environment = host.environment := by
      have h := (Disposable.create_beside (.bytes unit.data) s.configuration.tempDirectory)
        (setLock true host) _ (Beside.refl (setLock true host) host.environment)
      rw [show (Disposable.create _ _).exec (setLock true host) = (.ok resource, made) from
        hmake] at h
      exact h.2.mine
    have h := JavaTools.environment_inherits hchild
    rwa [show (toolStart made).environment = host.environment from hmade] at h
  · rintro child path ⟨command, result, -, hchild, -⟩
    exact JavaTools.environment_inherits hchild

/-- A javap that shows three variables, on a host with a class path and on one with options for Java
instead.  It sees neither, and has the installation at the front of its search path. -/
theorem java_settings_do_not_reach_echo :
    let javap : Program := { echoVariables := ["CLASSPATH", "LANG", "PATH"] }
    let s : Service := {
      backend := Backend.javap
      configuration := {
        toolPath := some ⟨.root, ["jdk"]⟩, tempDirectory := some ⟨.root, ["temp"]⟩ } }
    let host : Host := {
      disk := { tree := ⟨[(["jdk"], .directory 0o755), (["temp"], .directory 0o755),
        (["jdk", "javap"], .file (.program javap) 0o755)]⟩ }
      environment := [("CLASSPATH", "/elsewhere"), ("LANG", "C"), ("PATH", "/bin")] }
    let environment := [("LANG", "C"), ("_JAVA_OPTIONS", "-Xmx1m"), ("PATH", "/bin")]
    (s.disassemble ⟨[], "Foo"⟩).exec { host with environment } =
        (((s.disassemble ⟨[], "Foo"⟩).exec host).1,
          { ((s.disassemble ⟨[], "Foo"⟩).exec host).2 with environment }) ∧
      ((s.disassemble ⟨[], "Foo"⟩).exec host).1.toOption.map (·.text) =
        some "CLASSPATH=<unset>\nLANG=C\nPATH=/jdk:/bin\n" := by
  intro javap s host environment
  have h := java_settings_do_not_reach_tool s host environment rfl rfl (by decide)
  exact ⟨h.1 ⟨[], "Foo"⟩, by decide +kernel⟩

end Service

end Dissect
