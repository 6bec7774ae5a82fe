/-
# What a run of javap comes to

A disassembly with javap starts one program, and everything it comes to can be read off the three
things that the program leaves: the bytes on its two streams and its status.  The bytes of each
stream are read as text by itself, so a character that one stream leaves unfinished is not completed
by the other, and a CR at the end of the first and an LF at the start of the second are two line
ends.

With status zero the two texts, one after the other, are the text of the outcome.  With any other
status the outcome is a failure that names the status and ends with the two texts
(`Service.disassemble_of_process`).
-/
import Dissect.Proofs.Captures
import Dissect.Proofs.Endings
import Dissect.Proofs.LenientReading
import Dissect.Proofs.StartedPrograms

namespace Dissect

/-! ## 1. The status of a program -/

/-- A status that a parent can see fits in a byte, up to its sign. -/
def ProcessResult.IsSeen (result : ProcessResult) : Prop := result.status.natAbs < 256

theorem Ending.status_natAbs (ending : Ending) : ending.status.natAbs < 256 := by
  cases ending with
  | exit status =>
    have hlow := Int.emod_nonneg status (b := 256) (by decide)
    have hhigh := Int.emod_lt_of_pos status (b := 256) (by decide)
    show (status % 256).natAbs < 256
    omega
  | signal number =>
    show (-((number % 128 : Nat) : Int)).natAbs < 256
    omega

theorem Program.run_isSeen (p : Program) (arguments : List String)
    (environment : List (String × String)) (contents : Except String Text.Bytes) :
    (p.run arguments environment contents).IsSeen := by
  unfold run
  split
  · exact Ending.status_natAbs (.exit _)
  · exact Ending.status_natAbs p.ending

namespace Shell

variable {session : Session} {name : String} {line : Nat}

theorem leave_isSeen (h : session.IsSeen) (arguments : List String) :
    (leave name line session arguments).IsSeen := by
  unfold leave
  split
  · exact h
  · split
    · exact Ending.status_natAbs (.exit _)
    · exact (by decide : (2 : Int).natAbs < 256)

theorem obey_isSeen (h : session.IsSeen) (words : List String) :
    (obey name line session words).IsSeen := by
  unfold obey
  split
  · exact h
  · exact (by decide : (0 : Int).natAbs < 256)
  · exact (by decide : (0 : Int).natAbs < 256)
  · exact (by decide : (1 : Int).natAbs < 256)
  · exact (by decide : (0 : Int).natAbs < 256)
  · exact (by decide : (127 : Int).natAbs < 256)

/-- The induction is on the lines of the script. -/
theorem runLines_isSeen (options : Options) : ∀ (lines : List String) (session : Session) (n : Nat),
    session.IsSeen → (runLines options name session n lines).IsSeen
  | [], _, _, h => h
  | line :: rest, session, n, h => by
    have hshown : ∀ stderr, ProcessResult.IsSeen { session with stderr } := fun _ => h
    unfold runLines
    simp only
    generalize (if (options.shows && !(words line).isEmpty) = true then _ else "") = shown
    split
    · exact leave_isSeen (hshown _) _
    · have hobeyed (stderr : Text.Bytes) :
          (obey name n { session with stderr } (words line)).IsSeen := obey_isSeen (hshown stderr) _
      split
      · exact hobeyed _
      · exact runLines_isSeen options rest _ _ (hobeyed _)

theorem run_isSeen (options : Options) (name : String) (source : Text.Bytes) :
    (run options name source).IsSeen := by
  unfold run
  split
  · exact (by decide : (0 : Int).natAbs < 256)
  · exact runLines_isSeen options _ _ _ (by exact (by decide : (0 : Int).natAbs < 256))

theorem refuse_isSeen (name what : String) : (refuse name what).IsSeen :=
  (by decide : (2 : Int).natAbs < 256)

theorem Request.after_isSeen {options : Options} {isText : Bool} {arguments : List String}
    {result : ProcessResult} (h : Request.after name options isText arguments = .refusal result) :
    result.IsSeen := by
  unfold Request.after at h
  split at h
  · split at h <;> cases h
    · exact refuse_isSeen name _
    · exact (by decide : (0 : Int).natAbs < 256)
  · split at h <;> cases h

/-- The induction is on the arguments. -/
theorem Request.refusal_isSeen {result : ProcessResult} :
    ∀ (arguments : List String) (options : Options) (isText : Bool),
      Request.ofArguments name options isText arguments = .refusal result → result.IsSeen
  | [], _, _, h => Request.after_isSeen h
  | argument :: rest, options, isText, h => by
    unfold Request.ofArguments at h
    split at h
    · split at h
      · exact Request.after_isSeen h
      · split at h
        · exact Request.after_isSeen h
        · split at h
          · exact refusal_isSeen rest _ _ h
          · cases h
            exact refuse_isSeen name _
    · exact Request.after_isSeen h

end Shell

namespace Command

theorem runShell_isSeen (disk : Files.Disk) (environment : Environment) (name : String)
    (arguments : List String) : (runShell disk environment name arguments).IsSeen := by
  unfold runShell
  split
  · rename_i h
    exact Shell.Request.refusal_isSeen _ _ _ h
  · exact Shell.run_isSeen _ _ _
  · split
    · exact Program.run_isSeen _ _ _ _
    · exact Shell.run_isSeen _ _ _
    · exact (by decide : (0 : Int).natAbs < 256)
    · exact Shell.refuse_isSeen name _

/-- The induction is on the depth to which interpreters may be nested. -/
theorem start_isSeen {disk : Files.Disk} {environment : Environment} {result : ProcessResult} :
    ∀ {depth : Nat} {path name : String} {arguments : List String},
      start disk environment depth path name arguments = .ok result → result.IsSeen
  | 0, _, _, _, h => by cases h
  | depth + 1, path, name, arguments, h => by
    unfold start at h
    obtain ⟨node, -, h⟩ := ok_of_bind h
    split at h
    · split at h
      · cases h
      · split at h
        · cases h
          exact Program.run_isSeen _ _ _ _
        · cases h
          exact runShell_isSeen _ _ _ _
        · split at h
          · cases h
          · cases h
          · exact start_isSeen h
    · cases h

/-- **What runs leaves a status that a parent can see.** -/
theorem run_isSeen {disk : Files.Disk} {environment : Environment} {command : List String}
    {result : ProcessResult} (h : run disk environment command = .ok result) : result.IsSeen := by
  obtain ⟨_, _, _, -, -, hstarted⟩ := startedAt_of_run h
  exact start_isSeen hstarted

end Command

/-! ## 2. Calling a program -/

namespace Command

variable {host : Host} {id : Nat} {text : String} {result : ProcessResult}
variable {command arguments : List String} {environment : Environment}

/-- The request to exit that a status is passed on as. -/
def statusRequest (status : Int) : Fault := { kind := .systemExit, args := [.int status] }

/-- How a call ends that passes on a status. -/
def statusEnding (status : Int) : Except Fault Unit :=
  if status = 0 then .ok () else .error (statusRequest status)

/-- What a process wrote, as text: all of its output, then all of its complaints. -/
def processText (result : ProcessResult) : String :=
  streamText result.stdout ++ streamText result.stderr

/-- **A call writes what the process wrote**, and ends as the status says. -/
theorem call_records (hrun : run host.disk environment (command ++ arguments) = .ok result)
    (h : host.console.Records id text) :
    ∃ console, (call command environment arguments).exec host =
        (statusEnding result.status, { host with console }) ∧
      console.Records id (text ++ processText result) := by
  have hquery := Run.exec_query
    (fun host : Host => run host.disk environment (command ++ arguments)) host
  rw [hrun] at hquery
  obtain ⟨first, hfirst, hout⟩ := forward_records host h.writeOut h (streamText result.stdout)
  obtain ⟨console, hlast, herr⟩ := forward_records { host with console := first }
    hout.writeErr hout (streamText result.stderr)
  refine ⟨console, ?_, by rw [processText, ← String.append_assoc]; exact herr⟩
  unfold call
  rw [Run.exec_bind_ok hquery, Run.exec_bind_ok hfirst, Run.exec_bind_ok hlast]
  unfold statusEnding statusRequest
  by_cases hs : result.status = 0 <;> simp [hs]

end Command

/-! ## 3. The outcome of a failure -/

/-- The reason of a failed disassembly: the class of the failure, and its message if there is
one. -/
def Fault.reason (fault : Fault) : String :=
  if fault.message = "" then fault.name else fault.name ++ ": " ++ fault.message

namespace Classifier

variable {c : Classifier} {fault : Fault} {className captured : String} {outcome : Outcome}

theorem tell_ok {message : String} (h : fault.tell = .ok message) : message = fault.message := by
  unfold Fault.tell at h
  split at h <;> cases h
  rfl

/-- The block of a failure ends with the output of the tool, if there was any. -/
theorem failureBlock_ends (label className trace : String)
    (h : Text.allBlank captured = false) :
    ∃ front, Diagnostic.failureBlock label (detail className trace captured) =
      front ++ "\n\nTool output:\n" ++ Text.stripEnd captured := by
  have hlast : ∀ front : String, front ++ "\n\n" ++ ("Tool output:\n" ++ Text.stripEnd captured) =
      front ++ "\n\nTool output:\n" ++ Text.stripEnd captured := by
    intro front
    have hjoin : front ++ "\n\n" ++ "Tool output:\n" = front ++ "\n\nTool output:\n" := by
      rw [String.append_assoc]
      rfl
    rw [← String.append_assoc, hjoin]
  unfold Diagnostic.failureBlock detail detailParagraphs Text.join
  rw [h]
  simp only [Bool.false_eq_true, if_false]
  generalize (if className = "" then [] else ["Class: " ++ className]) ++
    (if trace = "" then [] else [trace]) = paragraphs
  cases hp : paragraphs with
  | nil => exact ⟨_, hlast _⟩
  | cons first rest =>
    refine ⟨label ++ " Error! " ++ Diagnostic.reportNotice ++ "\n\n" ++ Diagnostic.fixNotice ++
      "\n\n" ++ String.intercalate "\n\n" (first :: rest), ?_⟩
    rw [String.intercalate_append_of_ne_nil (by simp) (by simp), ← hlast]
    simp only [String.append_assoc, String.intercalate_singleton]

/-- **What the outcome of a failure says**: its class and message, and at the end of its text what
the tool wrote. -/
theorem failed_tells (h : c.failed fault className captured = .ok outcome) :
    ∃ diagnostic, outcome.diagnostic = some diagnostic ∧ diagnostic.reason = some fault.reason ∧
      (Text.allBlank captured = false →
        ∃ front, outcome.text = front ++ "\n\nTool output:\n" ++ Text.stripEnd captured) := by
  obtain ⟨report, message, -, hmessage, rfl⟩ := failed_ok h
  cases tell_ok hmessage
  exact ⟨_, rfl, rfl, failureBlock_ends c.label className (Text.stripEnd report)⟩

end Classifier

namespace Service

variable {s : Service} {unit : ClassUnit} {root : Path} {host made : Host} {resource : Disposable}

/-- The exit of a tool with a status that a parent can see is a failure that names the status. -/
theorem exitFault_status {status : Int} (h : status.natAbs < 256) :
    Invocation.exitFault (Command.statusRequest status) =
      { kind := .toolExitError, args := [.int status], cause := some (Command.statusRequest status),
        context := some (Command.statusRequest status) } := by
  have hwritten : (Command.statusRequest status).exitCode.demandWritten = .ok () :=
    Value.demandWritten_ok_iff.mpr (Value.obstacle?_of_short (Nat.lt_trans h (by decide)))
  rw [Invocation.exitFault, hwritten]
  rfl

/-- The outcome of such an exit. -/
theorem classify_status (s : Service) (unit : ClassUnit) (root : Path) {status : Int}
    (hseen : status.natAbs < 256) (captured : String) :
    ∃ outcome diagnostic,
      s.classifier.classify (Invocation.exitFault (Command.statusRequest status)) unit.name
        (some root) captured = .ok outcome ∧
      outcome.kind = .failure ∧ outcome.diagnostic = some diagnostic ∧
      diagnostic.reason = some ("ToolExitError: Tool exited with status " ++ toString status) ∧
      (Text.allBlank captured = false →
        ∃ front, outcome.text = front ++ "\n\nTool output:\n" ++ Text.stripEnd captured) := by
  have hexit : ∃ outcome,
      s.classifier.classify (Invocation.exitFault (Command.statusRequest status)) unit.name
        (some root) captured = .ok outcome := classify_exitFault rfl rfl rfl
  obtain ⟨outcome, houtcome⟩ := hexit
  have hkind := Invocation.kindOf_exitFault (Command.statusRequest status)
  have hfailed : s.classifier.failed (Invocation.exitFault (Command.statusRequest status)) unit.name
      captured = .ok outcome := by
    have hclassified := houtcome
    rw [Classifier.classify, hkind] at hclassified
    exact hclassified
  obtain ⟨diagnostic, hdiagnostic, hreason, hends⟩ := Classifier.failed_tells hfailed
  refine ⟨outcome, diagnostic, houtcome, (Classifier.classify_kind houtcome).trans hkind,
    hdiagnostic, ?_, hends⟩
  have hmessage : (Invocation.exitFault (Command.statusRequest status)).message =
      "Tool exited with status " ++ toString status := by
    rw [exitFault_status hseen]
    rfl
  rw [hreason, Fault.reason, hmessage, if_neg (by simp), exitFault_status hseen]
  rfl

/-- What the status of a program means for a run with the usual signal. -/
theorem settle_status (status : Int) :
    Invocation.settle [Signal.cleanExit] (Command.statusEnding status) =
      if status = 0 then .ok ()
      else .error (Invocation.exitFault (Command.statusRequest status)) := by
  by_cases hs : status = 0
  · simp only [Command.statusEnding, hs, if_true, Invocation.settle]
  · have hnone : Signal.find? [Signal.cleanExit] (Command.statusRequest status) = none := by
      have hcode : Signal.isCleanCode (Command.statusRequest status).exitCode = false :=
        beq_eq_false_iff_ne.mpr hs
      simp [Signal.find?, Signal.matches?, Signal.cleanExit, hcode]
    have hexit : (Command.statusRequest status).isA .systemExit = true := rfl
    simp only [Command.statusEnding, hs, if_false, Invocation.settle, hexit, if_true, hnone]

/-- The result of a disassembly with javap, from what the program left. -/
theorem result_of_process {command : List String} {environment : Command.Environment}
    {left : ProcessResult} (hroot : s.configuration.toolPath = some root)
    (hinvoker : s.invoker = Invocation.invoke) (hbackend : s.backend = Backend.javap)
    (hmake : s.makeFile unit host = (.ok resource, made))
    (hcommand : ({ root } : JavaTools).command (toolStart made) = .ok command)
    (henvironment : ({ root } : JavaTools).environment (toolStart made) = .ok environment)
    (hrun : Command.run (toolStart made).disk environment
      (command ++ s.backend.argumentsFor resource.path) = .ok left) :
    ((s.disassemble unit).exec host).1 =
      if left.status = 0 then .ok (Outcome.success (Command.processText left))
      else s.classifier.classify (Invocation.exitFault (Command.statusRequest left.status))
        unit.name (some root) (Command.processText left) := by
  obtain ⟨console, hcall, hrecords⟩ := Command.call_records hrun made.console.records_begin
  have hends : s.backend.CallEnds root (s.backend.argumentsFor resource.path) (toolStart made)
      (Command.statusEnding left.status) { toolStart made with console } := by
    rw [hbackend] at hcall ⊢
    exact ⟨command, environment, hcommand, henvironment, hcall⟩
  have hsignals : s.backend.signals = [Signal.cleanExit] := by rw [hbackend]; rfl
  rw [disassemble_of_callEnds hroot hinvoker hmake hends, hsignals, settle_status,
    hrecords.textOf_finish, String.empty_append]
  by_cases hs : left.status = 0
  · simp only [hs, if_true]
    rfl
  · have hordinary : (Invocation.exitFault (Command.statusRequest left.status)).kind.isOrdinary =
        true := (Invocation.exitFault_own _).ordinary
    simp only [hs, if_false, verdict, hordinary, if_true]
    exact handled_eq_classify (by rw [Invocation.kindOf_exitFault]; decide)

/-- **What a disassembly with javap comes to.**  Let a program run and leave bytes on its two
streams and a status.  Each stream is read leniently as text by itself, and the outcome is the
success with the two texts exactly if the status is zero.  With any other status it is a failure
whose reason names the status, and whose text ends with the two texts unless they are blank.  In
particular a program that writes the bytes of a text without CR gives that very text. -/
theorem disassemble_of_process (s : Service) (unit : ClassUnit) (root : Path) (host : Host)
    {resource : Disposable} {made : Host} {command : List String}
    {environment : Command.Environment} {out complaints : Text.Bytes} {status : Int}
    (hroot : s.configuration.toolPath = some root) (hinvoker : s.invoker = Invocation.invoke)
    (hbackend : s.backend = Backend.javap) (hmake : s.makeFile unit host = (.ok resource, made))
    (hcommand : ({ root } : JavaTools).command (toolStart made) = .ok command)
    (henvironment : ({ root } : JavaTools).environment (toolStart made) = .ok environment)
    (hrun : Command.run (toolStart made).disk environment
      (command ++ s.backend.argumentsFor resource.path) = .ok ⟨out, complaints, status⟩) :
    let result := ((s.disassemble unit).exec host).1
    let told := Command.streamText out ++ Command.streamText complaints
    (result = .ok (Outcome.success told) ↔ status = 0) ∧
    (status ≠ 0 → ∃ outcome diagnostic, result = .ok outcome ∧ outcome.kind = .failure ∧
      outcome.diagnostic = some diagnostic ∧
      diagnostic.reason = some ("ToolExitError: Tool exited with status " ++ toString status) ∧
      (Text.allBlank told = false →
        ∃ front, outcome.text = front ++ "\n\nTool output:\n" ++ Text.stripEnd told)) ∧
    ∀ text : String, '\r' ∉ text.toList → out = Text.encode text → complaints = [] → status = 0 →
      result = .ok (Outcome.success text) := by
  intro result told
  have hseen : status.natAbs < 256 := Command.run_isSeen hrun
  have hresult : result = if status = 0 then .ok (Outcome.success told)
      else s.classifier.classify (Invocation.exitFault (Command.statusRequest status)) unit.name
        (some root) told :=
    result_of_process hroot hinvoker hbackend hmake hcommand henvironment hrun
  have hzero (hs : status = 0) : result = .ok (Outcome.success told) := by
    rw [hresult, if_pos hs]
  have hother (hs : status ≠ 0) : result = s.classifier.classify
      (Invocation.exitFault (Command.statusRequest status)) unit.name (some root) told := by
    rw [hresult, if_neg hs]
  refine ⟨⟨fun h => Decidable.byContradiction fun hs => ?_, hzero⟩, fun hs => ?_, ?_⟩
  · obtain ⟨outcome, -, houtcome, hkind, -⟩ :=
      classify_status s unit root hseen told
    rw [hother hs, houtcome] at h
    cases h
    cases hkind
  · rw [hother hs]
    exact classify_status s unit root hseen told
  · rintro text hplain rfl rfl hs
    have htold : told = text := by
      show Command.streamText (Text.encode text) ++ Command.streamText [] = text
      rw [Command.streamText_encode hplain]
      exact String.append_empty
    rw [hzero hs, htold]

/-- A javap that is killed after a character that it left unfinished and a CR, and after an LF and
a letter on the other stream. -/
theorem disassemble_of_killed_process :
    let s : Service := {
      backend := Backend.javap
      configuration := { toolPath := some ⟨.root, ["jdk"]⟩, tempDirectory := some ⟨.root, []⟩ } }
    let javap : Program := {
      stdout := [0xe2, 0x82, 0x0d], stderr := [0x0a, 0x78], ending := .signal 9 }
    let host : Host := {
      disk := { tree := ⟨[(["jdk"], .directory 0o755), (["jdk", "bin"], .directory 0o755),
        (["jdk", "bin", "javap"], .file (.program javap) 0o755)]⟩ } }
    ∃ outcome diagnostic, ((s.disassemble ⟨[0xca, 0xfe], "Foo"⟩).exec host).1 = .ok outcome ∧
      outcome.kind = .failure ∧ outcome.diagnostic = some diagnostic ∧
      diagnostic.reason = some "ToolExitError: Tool exited with status -9" ∧
      ∃ front, outcome.text = front ++ "\n\nTool output:\n" ++ "\ufffd\n\nx" := by
  intro s javap host
  let unit : ClassUnit := ⟨[0xca, 0xfe], "Foo"⟩
  let tools : JavaTools := { root := ⟨.root, ["jdk"]⟩ }
  let resource : Disposable := { path := ⟨.root, ["classview_aaaaaaaa.class"]⟩ }
  have hresource : (s.makeFile unit host).1.toOption = some resource := by decide +kernel
  have hcommand : (tools.command (toolStart (s.makeFile unit host).2)).toOption =
      some ["/jdk/bin/javap"] := by decide +kernel
  have henvironment : (tools.environment (toolStart (s.makeFile unit host).2)).toOption =
      some [("PATH", "/jdk/bin")] := by decide +kernel
  have hrun : (Command.run (toolStart (s.makeFile unit host).2).disk [("PATH", "/jdk/bin")]
      (["/jdk/bin/javap"] ++ s.backend.argumentsFor resource.path)).toOption =
        some ⟨[0xe2, 0x82, 0x0d], [0x0a, 0x78], -9⟩ := by decide +kernel
  have htold : Command.streamText [0xe2, 0x82, 0x0d] ++ Command.streamText [0x0a, 0x78] =
      "\ufffd\n\nx" := by decide +kernel
  have hlast : Text.stripEnd "\ufffd\n\nx" = "\ufffd\n\nx" := by decide +kernel
  rcases hmake : s.makeFile unit host with ⟨result, made⟩
  rw [hmake] at hresource hcommand henvironment hrun
  cases Run.ok_of_toOption hresource
  obtain ⟨-, hfailure, -⟩ := disassemble_of_process s unit ⟨.root, ["jdk"]⟩ host rfl rfl rfl hmake
    (Run.ok_of_toOption hcommand) (Run.ok_of_toOption henvironment) (Run.ok_of_toOption hrun)
  rw [htold, hlast] at hfailure
  obtain ⟨outcome, diagnostic, hresult, hkind, hdiagnostic, hreason, hends⟩ :=
    hfailure (by decide)
  exact ⟨outcome, diagnostic, hresult, hkind, hdiagnostic, hreason, hends (by decide +kernel)⟩

end Service

end Dissect
