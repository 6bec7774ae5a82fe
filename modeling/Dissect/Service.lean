/-
# The disassembly service

One disassembly from class bytes to an outcome.  The bytes go into a disposable file, the streams
are captured, the safety gate is raised, the tool runs, and all of this is undone whichever way the
run ends.  An ordinary failure becomes an outcome and is recorded; a request to stop passes through.
-/
import Dissect.Access
import Dissect.Classify
import Dissect.Disposable
import Dissect.ErrorStore.Basic
import Dissect.Invocation

namespace Dissect

/-- How a tool is run: a backend, the root of its installation, and a class file. -/
abbrev Invoker := Backend → Path → Path → Run Unit

/-- A disassembly service. -/
structure Service where
  backend : Backend
  configuration : ToolConfiguration
  store : Option ErrorStore := none
  invoker : Invoker := Invocation.invoke

namespace Service

/-- What the service's diagnostics say about its backend. -/
def classifier (s : Service) : Classifier := { label := s.backend.label, backend := s.backend.name }

/-! ## 1. The run -/

/-- The host with the gate raised or lowered. -/
def setGate (active : Bool) (host : Host) : Host := { host with gate := active }

/-- The host with the invocation context held or free. -/
def setLock (held : Bool) (host : Host) : Host := { host with locked := held }

/-- The host after a capture is finished. -/
def finishCapture (id : Nat) (host : Host) : Host :=
  { host with console := host.console.finish id }

/-- Begins a capture. -/
def beginCapture : Run Nat := do
  let host ← get
  let (id, console) := host.console.begin
  set { host with console }
  return id

/-- What is known of a run that is over: what it wrote, if it came to capturing, and how it
ended. -/
structure Finished where
  captured : String
  ending : Except Fault Unit

/-- Runs a tool on a class file with the streams captured and the gate raised.  Both are put back,
and the file is deleted, whichever way the tool ends. -/
def runOn (s : Service) (root : Path) (resource : Disposable) : Run Finished :=
  Run.ensuring
    (do
      let id ← beginCapture
      let ending ← Run.ensuring
        (Run.attempt do
          modify (setGate true)
          s.invoker s.backend root resource.path)
        (fun host => setGate false (finishCapture id host))
      return ⟨(← get).console.textOf id, ending⟩)
    resource.discard

/-- Runs the tool on the bytes of a class. -/
def run (s : Service) (unit : ClassUnit) (root : Path) : Run Finished := do
  match ← Run.attempt
    (Disposable.create (.bytes unit.data) s.configuration.tempDirectory) with
  | .error fault => return ⟨"", .error fault⟩
  | .ok resource => s.runOn root resource

/-! ## 2. Outcomes -/

/-- What is recorded of a failed run. -/
def reportOf (s : Service) (unit : ClassUnit) (root : Path) (captured : String)
    (outcome : Outcome) (trace : String) : ErrorStore.Report where
  operation := "disassemble"
  resultKind := outcome.kind.text
  backend := some s.backend.name
  className := some unit.name
  toolRoot := some root.text
  toolOutput := some captured
  traceback := some trace

/-- Records a failed run, if there is a store.  Trouble with the report or the store is reported
and goes no further. -/
def recordFailure (s : Service) (unit : ClassUnit) (fault : Fault)
    (report : String → ErrorStore.Report) : Run Unit := do
  match s.store with
  | none => return ()
  | some store =>
    let step : Run ErrorRecord := do
      store.record fault (report (← Run.ofExcept fault.report))
    match ← Run.attempt step with
    | .ok _ => return ()
    | .error trouble =>
      if trouble.kind.isOrdinary then do
        let message ← Run.ofExcept trouble.tell
        Run.note .error
          ("Failed to record disassembly error for " ++ unit.name ++ ": " ++ message)
      else throw trouble

/-- The log record about a failed run, which tells the failure. -/
def noteFailure (s : Service) (unit : ClassUnit) (fault : Fault) (outcome : Outcome) :
    Run Unit := do
  let message ← Run.ofExcept fault.tell
  if outcome.kind = .failure then
    Run.note .error
      (s.backend.label ++ " failed on " ++ unit.name ++ ": " ++ fault.name ++ ": " ++ message)
  else
    Run.note .warning
      (s.backend.label ++ " could not run for " ++ unit.name ++ ": " ++ message)

/-- The outcome of a run that ended in an ordinary failure. -/
def handleFailure (s : Service) (unit : ClassUnit) (root : Path) (captured : String)
    (fault : Fault) : Run Outcome := do
  let outcome ← Run.ofExcept (s.classifier.classify fault unit.name (some root) captured)
  s.noteFailure unit fault outcome
  s.recordFailure unit fault (s.reportOf unit root captured outcome)
  return outcome

/-- The outcome of a run that is over. -/
def conclude (s : Service) (unit : ClassUnit) (root : Path) (finished : Finished) : Run Outcome :=
  match finished.ending with
  | .ok () => return Outcome.success finished.captured
  | .error fault =>
    if fault.kind.isOrdinary then s.handleFailure unit root finished.captured fault
    else throw fault

/-- Disassembles one class.  The invocation context is held meanwhile. -/
def disassemble (s : Service) (unit : ClassUnit) : Run Outcome := do
  match s.configuration.toolPath with
  | none => do
    Run.note .warning
      (s.backend.label ++ ": tool path not configured, not disassembling " ++ unit.name)
    return s.classifier.notConfigured
  | some root => do
    modify (setLock true)
    Run.ensuring (do s.conclude unit root (← s.run unit root)) (setLock false)

/-- Disassembles one class and gives only the text. -/
def disassembleText (s : Service) (unit : ClassUnit) : Run String := do
  return (← s.disassemble unit).text

/-- Disassembles the class file at a path. -/
def disassembleFile (s : Service) (classPath : String) : Run Outcome := do
  let path ← Run.query fun host => Access.sanitize host.disk classPath
  let data ← Run.query fun host => Files.Errno.name path.text (host.disk.read path.text)
  s.disassemble ⟨data, path.stem⟩

/-! ## 3. Diagnosis -/

/-- The state of a service: of its installation, and where it keeps things. -/
structure Diagnosis where
  tool : Backend.Diagnosis
  tempDirectory : Option Path
  gate : Bool
  errorDirectory : Option Path

/-- The diagnosis as a document. -/
def Diagnosis.document (d : Diagnosis) : Json :=
  .obj (d.tool.members ++
    [("temp_dir", Json.ofText? (d.tempDirectory.map Path.text)),
     ("safety_gate_active", .bool d.gate),
     ("error_dir", Json.ofText? (d.errorDirectory.map Path.text))])

/-- Diagnoses the service. -/
def diagnose (s : Service) : Run Diagnosis := do
  let tool ← s.backend.diagnose s.configuration.toolPath
  return {
    tool, tempDirectory := s.configuration.tempDirectory, gate := (← get).gate,
    errorDirectory := s.store.map (·.directory) }

/-! ## 4. The shared service -/

/-- The service that the settings describe. -/
def ofSettings : Run Service := do
  let configuration ← ToolConfiguration.ofSettings
  let backend ← Run.ofExcept (Backend.ofConfiguration configuration)
  let directory ← Settings.path "CLASSVIEW_ERROR_DIR"
  let store ← ErrorStore.openAt directory 200
  return { backend, configuration, store := some store }

/-- The shared service: the one there is, or the one that the settings describe. -/
def shared (existing : Option Service) : Run Service :=
  match existing with
  | some s => return s
  | none => ofSettings

end Service

end Dissect
