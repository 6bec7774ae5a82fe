/-
# What a disassembly leaves behind

A disassembly makes a class file, captures the streams and raises the safety gate, runs the tool,
and undoes all of it in reverse.  From the moment at which the tool is started until it has ended,
whatever it is and however it ends, the gate is up, the streams are the capture's, nothing is
logged, and the disk is what it was but for the place of the class file (`DuringRun`).  So the
cleanup finds the host as it needs it, and what is left can be told exactly: nothing, unless the
tool put a directory in the place of the class file (`disassemble_cleans_up`).

Two things that one might expect do not hold.  Where no class file can be made, the gate is not
touched at all and stays as it was.  And the record of a failure is written through whatever links
the store's directory holds (`disassemble_keeps_gate_and_follows_links`), as files are deleted through
directories in it (`ErrorStore.prune_follows_directories`).  So what is said of the disk holds when the
run is over, whatever the store is; and the record leaves it so if the store has nothing to do with the
class files (`StoreApart`).
-/
import Dissect.Proofs.DisposableFiles
import Dissect.Proofs.Recording
import Dissect.Proofs.ToolRuns
import Dissect.Service

namespace Dissect

open Files (Disk Location Node Tree SameBut SameNodes LeadsToVacant)

/-! ## 1. The streams -/

/-- What a capture is but for its text. -/
def Capture.frame (capture : Capture) : Sink × Sink × Bool :=
  (capture.previousOut, capture.previousErr, capture.finished)

namespace Console

/-- The consoles have the same streams and the same captures, but for what was written. -/
structure SameFrame (base c : Console) : Prop where
  out : c.out = base.out
  err : c.err = base.err
  captures : c.captures.map Capture.frame = base.captures.map Capture.frame

variable {base c c' : Console}

/-- Writing changes texts only. -/
theorem SameFrame.write (h : SameFrame base c) {sink : Sink} {s : String}
    (hw : c.write sink s = .ok c') : SameFrame base c' := by
  cases sink with
  | stdout =>
    cases hw
    exact { h with }
  | stderr =>
    cases hw
    exact { h with }
  | capture id =>
    simp only [Console.write] at hw
    cases hc : c.captures[id]? with
    | none =>
      rw [hc] at hw
      cases hw
    | some capture =>
      simp only [hc] at hw
      split at hw
      · cases hw
      · cases hw
        obtain ⟨hid, rfl⟩ := List.getElem?_eq_some_iff.mp hc
        refine { h with captures := ?_ }
        rw [← h.captures, List.map_set]
        refine List.ext_getElem? fun i => ?_
        rw [List.getElem?_set]
        split
        · rename_i hi
          subst hi
          simp [hid, Capture.frame]
        · rfl

/-- Finishing a capture puts the same streams back. -/
theorem SameFrame.finish (h : SameFrame base c) (id : Nat) :
    (c.finish id).out = (base.finish id).out ∧ (c.finish id).err = (base.finish id).err := by
  have hframe : (c.captures[id]?).map Capture.frame = (base.captures[id]?).map Capture.frame := by
    rw [← List.getElem?_map, ← List.getElem?_map, h.captures]
  unfold Console.finish
  cases hc : c.captures[id]? with
  | none =>
    rw [hc] at hframe
    have hb : base.captures[id]? = none := by simpa using hframe.symm
    simp only [hb]
    exact ⟨h.out, h.err⟩
  | some capture =>
    rw [hc] at hframe
    obtain ⟨first, hb, hsame⟩ := Option.map_eq_some_iff.mp hframe.symm
    simp only [Capture.frame, Prod.mk.injEq] at hsame
    obtain ⟨hout, herr, hfinished⟩ := hsame
    simp only [hb, hfinished]
    split
    · exact ⟨h.out, h.err⟩
    · exact ⟨hout.symm, herr.symm⟩

end Console

namespace Service

variable {s : Service} {unit : ClassUnit} {root : Path} {host made : Host} {resource : Disposable}
variable {loc : Location}

/-! ## 2. The course of a run -/

/-- The host on which the tool is started, once the class file is made. -/
def toolStart (made : Host) : Host := setGate true { made with console := made.console.begin.2 }

/-- The host when the tool has ended. -/
def toolEnd (s : Service) (root : Path) (resource : Disposable) (made : Host) : Host :=
  ((s.invoker s.backend root resource.path).exec (toolStart made)).2

/-- The host when the streams and the gate are put back and the class file is discarded. -/
def tidied (s : Service) (root : Path) (resource : Disposable) (made : Host) : Host :=
  resource.discard
    (setGate false (finishCapture made.console.begin.1 (s.toolEnd root resource made)))

/-- The making of the class file. -/
def makeFile (s : Service) (unit : ClassUnit) (host : Host) : Except Fault Disposable × Host :=
  (Disposable.create (.bytes unit.data) s.configuration.tempDirectory).exec (setLock true host)

theorem runOn_host (s : Service) (root : Path) (resource : Disposable) (made : Host) :
    ((s.runOn root resource).exec made).2 = s.tidied root resource made := rfl

/-- A run ends in what its parts ended in, and never in a failure of its own. -/
theorem run_exec (s : Service) (unit : ClassUnit) (root : Path) (host : Host) :
    (s.run unit root).exec (setLock true host) =
      match s.makeFile unit host with
      | (.error fault, made) => (.ok ⟨"", .error fault⟩, made)
      | (.ok resource, made) => (s.runOn root resource).exec made := by
  unfold run makeFile
  rw [Run.exec_bind_ok (Run.exec_attempt _ _)]
  cases (Disposable.create (.bytes unit.data) s.configuration.tempDirectory).exec
    (setLock true host) with
  | mk result made => cases result <;> rfl

theorem runOn_result (s : Service) (root : Path) (resource : Disposable) (made : Host) :
    ∃ finished, ((s.runOn root resource).exec made).1 = .ok finished := ⟨_, rfl⟩

theorem disassemble_exec (hroot : s.configuration.toolPath = some root) (unit : ClassUnit)
    (host : Host) :
    (s.disassemble unit).exec host =
      (((s.run unit root >>= s.conclude unit root).exec (setLock true host)).1,
        setLock false ((s.run unit root >>= s.conclude unit root).exec (setLock true host)).2) := by
  have hlock : (modify (setLock true) : Run PUnit).exec host = (.ok ⟨⟩, setLock true host) := rfl
  unfold disassemble
  rw [hroot]
  simp only
  rw [Run.exec_bind_ok hlock, Run.exec_ensuring]

/-! ## 3. While the tool runs -/

/-- The host is one that the tool may leave, started on a host whose disk is a base but for the
place of the class file. -/
structure DuringRun (base : Disk) (loc : Location) (start host : Host) : Prop where
  gate : host.gate = true
  frame : start.console.SameFrame host.console
  log : host.log = start.log
  disk : SameBut base loc host.disk

variable {base : Disk} {start : Host}

theorem DuringRun.toolStart (hs : SameBut base loc made.disk) :
    DuringRun base loc (toolStart made) (toolStart made) :=
  ⟨rfl, ⟨rfl, rfl, rfl⟩, rfl, hs⟩

theorem indifferent_duringRun : Import.Indifferent (DuringRun base loc start) where
  write := fun _ _ _ _ h hw => { h with frame := h.frame.write hw }
  modules := fun _ _ h => { h with }

/-- The tool is told of the class file as its last argument, so this is the only file it can
touch. -/
theorem spares_duringRun (hw : base.tree.WellFormed) {path : Path}
    (hv : LeadsToVacant base path.text loc) (b : Backend) :
    Import.Spares (DuringRun base loc start) (b.argumentsFor path) where
  unlink := fun host last disk h hl hu => by
    rw [Backend.argumentsFor, List.getLast?_concat] at hl
    cases hl
    exact { h with disk := h.disk.unlink hw hv hu }
  makeDirectory := fun host last disk h hl hm => by
    rw [Backend.argumentsFor, List.getLast?_concat] at hl
    cases hl
    exact { h with disk := h.disk.makeDirectory hv hm }

/-- **When the tool has ended**, however it did. -/
theorem duringRun_toolEnd (root : Path) (resource : Disposable)
    (hinvoker : s.invoker = Invocation.invoke) (hw : base.tree.WellFormed)
    (hv : LeadsToVacant base resource.path.text loc) (hs : SameBut base loc made.disk) :
    DuringRun base loc (toolStart made) (s.toolEnd root resource made) := by
  unfold toolEnd
  rw [hinvoker]
  exact Invocation.invoke_keeps indifferent_duringRun _ _ _ (spares_duringRun hw hv _) _
    (DuringRun.toolStart hs)

/-- The tool is at work at a moment of a disassembly. -/
def ToolWorksAt (s : Service) (unit : ClassUnit) (root : Path) (host now : Host) : Prop :=
  ∃ resource made, s.makeFile unit host = (.ok resource, made) ∧
    s.backend.WorksAt root (s.backend.argumentsFor resource.path) (toolStart made) now

/-- **Whenever the tool is at work the gate is up.** -/
theorem gate_of_toolWorksAt {now : Host} (h : s.ToolWorksAt unit root host now) :
    now.gate = true := by
  obtain ⟨resource, made, -, hworks⟩ := h
  have hgate : Import.Indifferent fun host => host.gate = true :=
    ⟨fun _ _ _ _ h _ => h, fun _ _ h => h⟩
  have hspares : Import.Spares (fun host => host.gate = true)
      (s.backend.argumentsFor resource.path) :=
    ⟨fun _ _ _ h _ _ => h, fun _ _ _ h _ _ => h⟩
  exact Backend.of_worksAt hgate hspares hworks rfl

/-! ## 4. The cleanup -/

/-- The gate is down and the streams are those of before. -/
structure Tidy (before after : Host) : Prop where
  gate : after.gate = false
  out : after.console.out = before.console.out
  err : after.console.err = before.console.err

/-- The cleanup, on the host that the tool has left. -/
theorem DuringRun.tidied (h : DuringRun base loc (Service.toolStart made) host) :
    let tidied := setGate false (finishCapture made.console.begin.1 host)
    Tidy made tidied ∧ tidied.log = made.log ∧ SameBut base loc tidied.disk := by
  have hstreams := h.frame.finish made.console.begin.1
  have hback := Console.finish_begin made.console
  rw [Prod.mk.injEq] at hback
  exact ⟨⟨rfl, hstreams.1.trans hback.1, hstreams.2.trans hback.2⟩, h.log, h.disk⟩

/-- **The cleanup leaves nothing where the tool left no directory.** -/
theorem tidied_of_no_directory (hinvoker : s.invoker = Invocation.invoke)
    (hw : base.tree.WellFormed) {path : Path} (hv : LeadsToVacant base path.text loc)
    (hs : SameBut base loc made.disk)
    (hn : ((s.toolEnd root { path } made).disk.tree.get? loc).any Node.isDirectory = false) :
    Tidy made (s.tidied root { path } made) ∧ (s.tidied root { path } made).log = made.log ∧
      SameNodes base (s.tidied root { path } made).disk ∧
      (s.tidied root { path } made).disk.cwd = base.cwd := by
  obtain ⟨htidy, hlog, hdisk⟩ :=
    (duringRun_toolEnd root { path } hinvoker hw hv hs).tidied
  obtain ⟨disk, hdiscard, hsame, hcwd⟩ := Disposable.discard_spec hw hdisk hv hn
  rw [Service.tidied, hdiscard]
  exact ⟨⟨htidy.gate, htidy.out, htidy.err⟩, hlog, hsame, hcwd⟩

/-- **A directory that the tool put in the place of the class file remains, and one warning is
logged.** -/
theorem tidied_of_directory (hinvoker : s.invoker = Invocation.invoke)
    (hw : base.tree.WellFormed) {path : Path} (hv : LeadsToVacant base path.text loc)
    (hs : SameBut base loc made.disk) {mode : Nat}
    (hn : (s.toolEnd root { path } made).disk.tree.get? loc = some (.directory mode)) :
    Tidy made (s.tidied root { path } made) ∧
      (s.tidied root { path } made).log =
        made.log ++ [⟨.warning, Disposable.deleteWarning path .isDirectory⟩] ∧
      SameBut base loc (s.tidied root { path } made).disk ∧
      (s.tidied root { path } made).disk.tree.get? loc = some (.directory mode) := by
  obtain ⟨htidy, hlog, hdisk⟩ :=
    (duringRun_toolEnd root { path } hinvoker hw hv hs).tidied
  rw [Service.tidied, Disposable.discard_of_directory hdisk hv hn]
  exact ⟨⟨htidy.gate, htidy.out, htidy.err⟩, congrArg (· ++ _) hlog, hdisk, hn⟩

/-! ## 5. The outcome -/

section Outcome

variable {P : Host → Prop}

theorem noteFailure_keeps (hnote : ∀ host level message, P host → P (host.noted level message))
    (fault : Fault) (outcome : Outcome) : (s.noteFailure unit fault outcome).Keeps P := by
  refine (Run.Keeps.ofExcept _).bind fun message => ?_
  split <;> exact fun host hp => hnote host _ _ hp

theorem recordFailure_keeps (hnote : ∀ host level message, P host → P (host.noted level message))
    (hrecord : ∀ store, s.store = some store → ∀ (fault : Fault) (report : ErrorStore.Report),
      '/' ∉ report.operation.toList → (store.record fault report).Keeps P)
    (fault : Fault) {report : String → ErrorStore.Report}
    (ho : ∀ trace, '/' ∉ (report trace).operation.toList) :
    (s.recordFailure unit fault report).Keeps P := by
  unfold recordFailure
  split
  · exact Run.Keeps.pure _
  · rename_i store hstore
    have hstep : (do store.record fault (report (← Run.ofExcept fault.report))).Keeps P :=
      (Run.Keeps.ofExcept _).bind fun trace => hrecord store hstore fault _ (ho trace)
    refine hstep.attempt.bind fun result => ?_
    cases result with
    | ok r => exact Run.Keeps.pure _
    | error trouble =>
      simp only
      split
      · exact (Run.Keeps.ofExcept _).bind fun message host hp => hnote host _ _ hp
      · exact Run.Keeps.throw _

/-- Telling the outcome of a run keeps what log records and the store keep. -/
theorem conclude_keeps (s : Service) (unit : ClassUnit) (root : Path)
    (hnote : ∀ host level message, P host → P (host.noted level message))
    (hrecord : ∀ store, s.store = some store → ∀ (fault : Fault) (report : ErrorStore.Report),
      '/' ∉ report.operation.toList → (store.record fault report).Keeps P)
    (finished : Finished) : (s.conclude unit root finished).Keeps P := by
  unfold conclude
  split
  · exact Run.Keeps.pure _
  · rename_i fault _
    split
    · unfold handleFailure
      refine (Run.Keeps.ofExcept _).bind fun outcome => ?_
      have ho : ∀ trace,
          '/' ∉ (s.reportOf unit root finished.captured outcome trace).operation.toList := by
        intro trace
        simp [reportOf]
      exact (noteFailure_keeps hnote fault outcome).bind fun _ =>
        (recordFailure_keeps hnote hrecord fault ho).bind fun _ => Run.Keeps.pure _
    · exact Run.Keeps.throw _

end Outcome

/-- The location is not below the directory of the service's store. -/
def OutsideStore (s : Service) (d : Disk) (l : Location) : Prop :=
  ∀ store storeLoc, s.store = some store → d.locate true store.directory.text = .ok storeLoc →
    ¬ ErrorStore.Below storeLoc l

/-- Telling the outcome leaves the gate and the streams alone and takes back no log record, whatever
the store is. -/
theorem conclude_quiet (s : Service) (unit : ClassUnit) (root : Path) (host : Host)
    (finished : Finished) :
    ErrorStore.Quiet host ((s.conclude unit root finished).exec host).2 :=
  conclude_keeps s unit root (fun _ level message h => h.noted level message)
    (fun store _ fault _ ho => ErrorStore.record_keeps (ErrorStore.upheld_quiet store host) fault ho)
    finished host (.refl host)

/-- Telling the outcome changes no files outside the store. -/
theorem conclude_outside {d : Disk} (unit : ClassUnit) (root : Path)
    (hstore : ∀ store, s.store = some store →
      (∃ storeLoc, store.Enclosed host.disk storeLoc ∧
        d.locate true store.directory.text = .ok storeLoc) ∨
      store.directory.Proper ∧ store.Missing host.disk)
    (finished : Finished) {l : Location} (hl : s.OutsideStore d l) :
    ((s.conclude unit root finished).exec host).2.disk.tree.get? l = host.disk.tree.get? l := by
  have hunwritten : (∀ store, s.store = some store → store.directory.Proper ∧
      store.Missing host.disk) →
      ErrorStore.Unwritten host ((s.conclude unit root finished).exec host).2 := fun hall =>
    conclude_keeps s unit root (fun _ level message hp => hp.noted level message)
      (fun store hs fault _ ho =>
        ErrorStore.record_keeps
          (ErrorStore.upheld_unwritten (hall store hs).1 (hall store hs).2) fault ho)
      finished host (.refl host)
  rcases Option.eq_none_or_eq_some s.store with hnone | ⟨store, hsome⟩
  · rw [(hunwritten fun store hs => by rw [hnone] at hs; cases hs).disk]
  · have honly : ∀ other, s.store = some other → other = store := fun other hs =>
      Option.some.inj (hs.symm.trans hsome)
    rcases hstore store hsome with ⟨storeLoc, henclosed, hloc⟩ | hmissing
    · have h := conclude_keeps s unit root (P := ErrorStore.Recorded store storeLoc host)
        (fun h level message hp => hp.noted level message)
        (fun other hs fault report ho => by
          rw [honly other hs]
          exact ErrorStore.record_keeps ErrorStore.upheld_recorded fault ho) finished host
        (.refl henclosed)
      exact h.outside l (hl store storeLoc hsome hloc)
    · rw [(hunwritten fun other hs => by rw [honly other hs]; exact hmissing).disk]

/-! ## 6. The end of the run -/

/-- What a disassembly may count on: the disk is a proper one, and the system's failures to open a
file are of its own kind. -/
structure Ready (s : Service) (host : Host) : Prop where
  disk : host.disk.WellFormed
  temp : ∀ path, s.configuration.tempDirectory = some path → path.Proper
  opening : ∀ fault, host.openFault = some fault → fault.isA .osError = true

/-- The path of the directory for the class files leads to the location, and a directory is there. -/
structure FilesIn (s : Service) (host : Host) (base : Location) : Prop where
  locate : host.disk.locate true
    (Disposable.directoryFor host s.configuration.tempDirectory).text = .ok base
  directory : (host.disk.tree.get? base).any Node.isDirectory = true

/-- The class file is made in its directory, at a place where nothing was. -/
theorem makeFile_ok (hready : s.Ready host) (h : s.makeFile unit host = (.ok resource, made)) :
    ∃ (path : Path) (base : Location) (name : String) (disk : Disk) (namesTaken : Nat),
      resource = { path } ∧ s.FilesIn host base ∧
      LeadsToVacant host.disk path.text (base ++ [name]) ∧ SameBut host.disk (base ++ [name]) disk ∧
      made = { setLock true host with disk, namesTaken } := by
  obtain ⟨n, loc, disk, namesTaken, hresource, hv, hs, hmade⟩ :=
    Disposable.create_ok (by exact hready.disk) hready.temp h
  obtain ⟨path, deleted⟩ := resource
  obtain ⟨hpath, rfl⟩ := Disposable.mk.inj hresource
  have hl : host.disk.locate false path.text = .ok loc := hv.locate
  rw [hpath] at hl
  have hproper := Disposable.directoryFor_proper hready.disk hready.temp
  obtain ⟨base, hbase, rfl, hdir⟩ := Disk.locate_child hproper (Disposable.fileName_plain n)
    (Disposable.fileName_ne_up n) hl (fun hfollow => by cases hfollow)
  exact ⟨path, base, _, disk, namesTaken, rfl, ⟨hbase, hdir⟩, hv, hs, hmade⟩

/-- The host when the run is over and everything is put back. -/
def cleaned (s : Service) (unit : ClassUnit) (root : Path) (host : Host) : Host :=
  ((s.run unit root).exec (setLock true host)).2

theorem cleaned_of_error (root : Path) {fault : Fault}
    (h : s.makeFile unit host = (.error fault, made)) :
    s.cleaned unit root host = made := by
  rw [cleaned, run_exec, h]

/-- Where no class file could be made, nothing is there to be put back. -/
theorem cleaned_unmade (root : Path) (hready : s.Ready host) {fault : Fault}
    (h : s.makeFile unit host = (.error fault, made)) :
    ∃ namesTaken, s.cleaned unit root host = { setLock true host with namesTaken } := by
  obtain ⟨namesTaken, hmade⟩ :=
    Disposable.create_error (by exact hready.disk) hready.temp (by exact hready.opening) h
  exact ⟨namesTaken, (cleaned_of_error root h).trans hmade⟩

theorem cleaned_of_ok (root : Path) (h : s.makeFile unit host = (.ok resource, made)) :
    s.cleaned unit root host = s.tidied root resource made := by
  rw [cleaned, run_exec, h]
  rfl

/-- **The end of a run for which the class file was made**, in its directory, and what the tool left
in its place. -/
theorem cleaned_made (hinvoker : s.invoker = Invocation.invoke) (hready : s.Ready host)
    (h : s.makeFile unit host = (.ok resource, made)) {cleaned : Host}
    (hcleaned : cleaned = s.cleaned unit root host) :
    Tidy host cleaned ∧ ∃ base name, s.FilesIn host base ∧
      LeadsToVacant host.disk resource.path.text (base ++ [name]) ∧
      (((s.toolEnd root resource made).disk.tree.get? (base ++ [name])).any Node.isDirectory = false →
        cleaned.log = host.log ∧ SameNodes host.disk cleaned.disk ∧
          cleaned.disk.cwd = host.disk.cwd) ∧
      ∀ mode, (s.toolEnd root resource made).disk.tree.get? (base ++ [name]) =
          some (.directory mode) →
        cleaned.log =
          host.log ++ [⟨.warning, Disposable.deleteWarning resource.path .isDirectory⟩] ∧
        cleaned.disk.tree.get? (base ++ [name]) = some (.directory mode) ∧
        SameBut host.disk (base ++ [name]) cleaned.disk := by
  obtain ⟨path, base, name, disk, namesTaken, rfl, hbase, hv, hs, hmade⟩ := makeFile_ok hready h
  replace hcleaned : cleaned = s.tidied root { path } made := hcleaned.trans (cleaned_of_ok root h)
  have hmadeDisk : SameBut host.disk (base ++ [name]) made.disk := by rw [hmade]; exact hs
  have hlog : made.log = host.log := by rw [hmade]; rfl
  have hconsole : made.console = host.console := by rw [hmade]; rfl
  have hback : Tidy made cleaned → Tidy host cleaned := fun htidy =>
    ⟨htidy.gate, htidy.out.trans (by rw [hconsole]), htidy.err.trans (by rw [hconsole])⟩
  cases hn : ((s.toolEnd root { path } made).disk.tree.get? (base ++ [name])).any
      Node.isDirectory with
  | false =>
    obtain ⟨htidy, hlog', hsame, hcwd⟩ :=
      tidied_of_no_directory hinvoker hready.disk.tree hv hmadeDisk hn
    rw [← hcleaned] at htidy hlog' hsame hcwd
    refine ⟨hback htidy, base, name, hbase, hv, fun _ => ⟨hlog'.trans hlog, hsame, hcwd⟩, ?_⟩
    intro mode hmode
    rw [hmode] at hn
    cases hn
  | true =>
    obtain ⟨mode, hmode⟩ := Tree.directory_of_isDirectory hn
    obtain ⟨htidy, hlog', hbut, hdir⟩ :=
      tidied_of_directory hinvoker hready.disk.tree hv hmadeDisk hmode
    rw [← hcleaned] at htidy hlog' hbut hdir
    refine ⟨hback htidy, base, name, hbase, hv, fun hno => ?_, fun mode' hmode' => ?_⟩
    · rw [hn] at hno
      cases hno
    · rw [hmode] at hmode'
      cases hmode'
      exact ⟨by rw [hlog', hlog], hdir, hbut⟩

/-- What a run leaves of the disk: nothing has changed but perhaps one entry of the directory of the
class files, where nothing was. -/
structure LeavesDisk (s : Service) (host : Host) (d : Disk) : Prop where
  keeps : host.disk.tree.Keeps d.tree
  cwd : d.cwd = host.disk.cwd
  nodes : SameNodes host.disk d ∨ ∃ base name, s.FilesIn host base ∧
    SameBut host.disk (base ++ [name]) d

theorem LeavesDisk.of_sameNodes {d : Disk} (h : SameNodes host.disk d)
    (hc : d.cwd = host.disk.cwd) : s.LeavesDisk host d :=
  ⟨Tree.Keeps.of_eq h, hc, .inl h⟩

/-- **The run of the tool leaves the disk as it was**, but perhaps for one entry of the directory of the
class files. -/
theorem cleaned_leavesDisk (unit : ClassUnit) (root : Path) (hinvoker : s.invoker = Invocation.invoke)
    (hready : s.Ready host) : s.LeavesDisk host (s.cleaned unit root host).disk := by
  cases hmake : s.makeFile unit host with
  | mk result made =>
    cases result with
    | error fault =>
      obtain ⟨namesTaken, hcleaned⟩ := cleaned_unmade root hready hmake
      rw [hcleaned]
      exact .of_sameNodes (fun _ => rfl) rfl
    | ok resource =>
      obtain ⟨-, base, name, hbase, hv, hfile, hdir⟩ := cleaned_made hinvoker hready hmake rfl
      cases hn : ((s.toolEnd root resource made).disk.tree.get? (base ++ [name])).any
          Node.isDirectory with
      | false =>
        obtain ⟨-, hsame, hcwd⟩ := hfile hn
        exact .of_sameNodes hsame hcwd
      | true =>
        obtain ⟨mode, hmode⟩ := Tree.directory_of_isDirectory hn
        obtain ⟨-, -, hbut⟩ := hdir mode hmode
        exact ⟨hbut.keeps hv.vacant, hbut.cwd, .inr ⟨base, name, hbase, hbut⟩⟩

/-! ## 7. The store beside the class files -/

/-- The store's directory is there, it is not that of the class files, and it holds neither links nor
directories. -/
structure KeepsApart (s : Service) (store : ErrorStore) (host : Host) (storeLoc : Location) :
    Prop where
  enclosed : store.Enclosed host.disk storeLoc
  apart : ¬ s.FilesIn host storeLoc

/-- The store's directory is not there, and nothing that is put in the directory of the class files
can bring it about. -/
structure KeepsAway (s : Service) (store : ErrorStore) (host : Host) : Prop where
  proper : store.directory.Proper
  missing : store.Missing host.disk
  stays : ∀ base name disk, s.FilesIn host base → SameBut host.disk (base ++ [name]) disk →
    store.Missing disk

/-- The store, if there is one, has nothing to do with the class files. -/
def StoreApart (s : Service) (host : Host) : Prop :=
  ∀ store, s.store = some store →
    (∃ storeLoc, s.KeepsApart store host storeLoc) ∨ s.KeepsAway store host

/-- What a disassembly may count on, and a store that has nothing to do with the class files. -/
structure Fits (s : Service) (host : Host) : Prop extends Ready s host where
  store : s.StoreApart host

/-- The entries of the directory of the class files are outside the store. -/
theorem StoreApart.outside_entry (h : s.StoreApart host) (hw : host.disk.tree.WellFormed)
    {base : Location} (hb : s.FilesIn host base) (name : String) :
    s.OutsideStore host.disk (base ++ [name]) := by
  intro store storeLoc hs hloc
  have hd := hb.directory
  rcases h store hs with ⟨keptLoc, hkept⟩ | haway
  · have hsame := hkept.enclosed.locate
    rw [hloc] at hsame
    cases hsame
    refine hkept.enclosed.not_below_child ?_ hd name
    rintro rfl
    exact hkept.apart hb
  · rintro ⟨hp, hself⟩
    have hno := haway.missing storeLoc hloc
    rcases List.prefix_concat_iff.mp hp with heq | ⟨rest, rfl⟩
    · exact hself heq.symm
    · by_cases hrest : rest = []
      · rw [hrest, List.append_nil, hno] at hd
        cases hd
      · rw [hw.vacant_below hno hrest] at hd
        cases hd

/-- The run leaves what is in the store as it was. -/
theorem LeavesDisk.inStore {d : Disk} (h : s.LeavesDisk host d) (hfits : s.Fits host) {l : Location}
    (hl : ¬ s.OutsideStore host.disk l) : d.tree.get? l = host.disk.tree.get? l := by
  rcases h.nodes with hsame | ⟨base, name, hbase, hbut⟩
  · exact hsame l
  · refine hbut.others l ?_
    rintro rfl
    exact hl (hfits.store.outside_entry hfits.disk.tree hbase name)

/-- After the run the store still has nothing to do with the class files. -/
theorem Fits.store_after (h : s.Fits host) {d : Disk} (hleaves : s.LeavesDisk host d) :
    ∀ store, s.store = some store →
      (∃ storeLoc, store.Enclosed d storeLoc ∧
        host.disk.locate true store.directory.text = .ok storeLoc) ∨
      store.directory.Proper ∧ store.Missing d := by
  intro store hs
  rcases h.store store hs with ⟨storeLoc, hkept⟩ | haway
  · have hlocate := hkept.enclosed.locate
    refine .inl ⟨storeLoc, hkept.enclosed.of_keeps hleaves.keeps hleaves.cwd fun l hl => ?_, hlocate⟩
    exact hleaves.inStore h fun ho => ho store storeLoc hs hlocate hl
  · refine .inr ⟨haway.proper, ?_⟩
    rcases hleaves.nodes with hsame | ⟨base, name, hbase, hbut⟩
    · intro loc hloc
      rw [hsame loc]
      exact haway.missing loc
        (Disk.locate_keeps (Tree.Keeps.of_eq fun l => (hsame l).symm) hleaves.cwd.symm hloc)
    · exact haway.stays base name d hbase hbut

/-! ## 8. The disassembly -/

/-- The run always ends in something of which an outcome is made. -/
theorem disassemble_host (hroot : s.configuration.toolPath = some root) (unit : ClassUnit)
    (host : Host) :
    ∃ finished, ((s.disassemble unit).exec host).2 =
      setLock false ((s.conclude unit root finished).exec (s.cleaned unit root host)).2 := by
  have hfinished : ∃ finished,
      ((s.run unit root).exec (setLock true host)).1 = .ok finished := by
    rw [run_exec]
    rcases s.makeFile unit host with ⟨result, made⟩
    cases result with
    | error fault => exact ⟨⟨"", .error fault⟩, rfl⟩
    | ok resource => exact s.runOn_result root resource made
  obtain ⟨finished, hresult⟩ := hfinished
  have hrun : (s.run unit root).exec (setLock true host) =
      (.ok finished, s.cleaned unit root host) := by rw [cleaned, ← hresult]
  have hwhole : (s.run unit root >>= s.conclude unit root).exec (setLock true host) =
      (s.conclude unit root finished).exec (s.cleaned unit root host) := Run.exec_bind_ok hrun
  refine ⟨finished, ?_⟩
  rw [disassemble_exec hroot, hwhole]

/-- After the cleanup the gate and the streams stay as they are, and no log record is taken back. -/
theorem after_cleaned (hroot : s.configuration.toolPath = some root) (unit : ClassUnit)
    (host : Host) :
    ErrorStore.Quiet (s.cleaned unit root host) ((s.disassemble unit).exec host).2 := by
  obtain ⟨finished, hafter⟩ := disassemble_host hroot unit host
  have h := conclude_quiet s unit root (s.cleaned unit root host) finished
  rw [hafter]
  exact { h with }

/-- After the cleanup nothing changes outside the store. -/
theorem disassemble_outside_store (unit : ClassUnit) (hroot : s.configuration.toolPath = some root)
    (hinvoker : s.invoker = Invocation.invoke) (hfits : s.Fits host) {l : Location}
    (hl : s.OutsideStore host.disk l) :
    ((s.disassemble unit).exec host).2.disk.tree.get? l =
      (s.cleaned unit root host).disk.tree.get? l := by
  obtain ⟨finished, hafter⟩ := disassemble_host hroot unit host
  rw [hafter]
  exact conclude_outside unit root
    (hfits.store_after (cleaned_leavesDisk unit root hinvoker hfits.toReady)) finished hl

/-- The location is one at which a runtime may keep the compiled form of code that it has loaded. -/
def ForCompiledCode (l : Location) : Prop := Import.compiledDirectory ∈ l

/-- The disks have the same nodes, but for at most one place, and leaving compiled code aside. -/
def SameButOne (except : Option Location) (before after : Disk) : Prop :=
  ∀ l, except ≠ some l → ¬ ForCompiledCode l → after.tree.get? l = before.tree.get? l

/-- **What a disassembly leaves behind.**  However it ends, the streams are those of before, and all
that is logged after the cleanup comes on top of what the cleanup left.

* Where the class file could not be made, the gate is as it was, and nothing has changed on the disk
  when the run is over.
* Where it was made, the gate is down.  When the run is over, nothing has changed on the disk and
  nothing was logged if the tool left no directory in the place of the class file; if it did, that
  directory remains, nothing else has changed, and the cleanup logged one warning.
* What follows the run is the record of a failure.  Where the store's directory is not there, or is not
  that of the class files and holds neither links nor directories, recording changes nothing outside the
  store; and the entries of the directory of the class files are outside.
* Whenever the tool was at work the gate was up.

What is said of the disk leaves aside the places at which a runtime may keep compiled code. -/
theorem disassemble_cleans_up (s : Service) (unit : ClassUnit) (root : Path) (host : Host)
    (hroot : s.configuration.toolPath = some root) (hinvoker : s.invoker = Invocation.invoke)
    (hready : s.Ready host) :
    let cleaned := s.cleaned unit root host
    let after := ((s.disassemble unit).exec host).2
    after.console.out = host.console.out ∧ after.console.err = host.console.err ∧
    cleaned.log <+: after.log ∧
    (∀ fault made, s.makeFile unit host = (.error fault, made) →
      after.gate = host.gate ∧ cleaned.log = host.log ∧ SameButOne none host.disk cleaned.disk) ∧
    (∀ resource made, s.makeFile unit host = (.ok resource, made) →
      after.gate = false ∧
      ∃ loc, LeadsToVacant host.disk resource.path.text loc ∧
        (((s.toolEnd root resource made).disk.tree.get? loc).any Node.isDirectory = false →
          cleaned.log = host.log ∧ SameButOne none host.disk cleaned.disk) ∧
        ∀ mode, (s.toolEnd root resource made).disk.tree.get? loc = some (.directory mode) →
          cleaned.log =
            host.log ++ [⟨.warning, Disposable.deleteWarning resource.path .isDirectory⟩] ∧
          cleaned.disk.tree.get? loc = some (.directory mode) ∧
          SameButOne (some loc) host.disk cleaned.disk) ∧
    (s.StoreApart host →
      (∀ l, s.OutsideStore host.disk l →
        after.disk.tree.get? l = cleaned.disk.tree.get? l) ∧
      ∀ base name, s.FilesIn host base → s.OutsideStore host.disk (base ++ [name])) ∧
    ∀ now, s.ToolWorksAt unit root host now → now.gate = true := by
  intro cleaned after
  have hquiet : ErrorStore.Quiet cleaned after := after_cleaned hroot unit host
  have hstore : s.StoreApart host →
      (∀ l, s.OutsideStore host.disk l → after.disk.tree.get? l = cleaned.disk.tree.get? l) ∧
      ∀ base name, s.FilesIn host base → s.OutsideStore host.disk (base ++ [name]) := fun happart =>
    ⟨fun l hl => disassemble_outside_store unit hroot hinvoker ⟨hready, happart⟩ hl,
      fun base name hbase => happart.outside_entry hready.disk.tree hbase name⟩
  cases hmake : s.makeFile unit host with
  | mk result made =>
    cases result with
    | error fault =>
      have hcleaned : ∃ namesTaken, cleaned = { setLock true host with namesTaken } :=
        cleaned_unmade root hready hmake
      obtain ⟨namesTaken, hcleaned⟩ := hcleaned
      have hconsole : after.console = host.console := by rw [hquiet.console, hcleaned]; rfl
      refine ⟨by rw [hconsole], by rw [hconsole], hquiet.log, fun _ _ _ => ?_, ?_, hstore,
        fun now => gate_of_toolWorksAt⟩
      · refine ⟨by rw [hquiet.gate, hcleaned]; rfl, by rw [hcleaned]; rfl, fun l _ _ => ?_⟩
        rw [hcleaned]
        rfl
      · intro resource made' h
        cases h
    | ok resource =>
      have hcleaned : cleaned = s.cleaned unit root host := rfl
      obtain ⟨htidy, base, name, hbase, hv, hfile, hdir⟩ :=
        cleaned_made hinvoker hready hmake hcleaned
      refine ⟨(congrArg Console.out hquiet.console).trans htidy.out,
        (congrArg Console.err hquiet.console).trans htidy.err, hquiet.log, ?_, ?_, hstore,
        fun now => gate_of_toolWorksAt⟩
      · intro fault made' h
        cases h
      · intro resource' made' h
        cases h
        refine ⟨hquiet.gate.trans htidy.gate, base ++ [name], hv, fun hn => ?_, fun mode hmode => ?_⟩
        · obtain ⟨hlog, hsame, -⟩ := hfile hn
          exact ⟨hlog, fun l _ _ => hsame l⟩
        · obtain ⟨hlog, hleft, hbut⟩ := hdir mode hmode
          exact ⟨hlog, hleft, fun l hl _ => hbut.others l fun he => hl (congrArg some he.symm)⟩

/-- A tool that puts a directory in the place of the class file and is then interrupted. -/
theorem disassemble_cleans_up_on_interrupt :
    let s : Service := {
      backend := { engine := .module ⟨"javap", "main"⟩ "javap:main", label := "Tool",
                   arguments := [] }
      configuration := {
        toolPath := some ⟨.root, ["tool"]⟩, tempDirectory := some ⟨.root, ["temp"]⟩ }
      store := some { directory := ⟨.root, ["errors"]⟩ } }
    let script : Script :=
      { members := [("main", .routine [.toDirectory, .raise { kind := .keyboardInterrupt }])] }
    let host : Host := {
      disk := { tree := ⟨[(["tool"], .directory 0o755), (["temp"], .directory 0o755),
        (["errors"], .directory 0o755), (["tool", "javap.py"], .file (.script script) 0o644)]⟩ }
      gate := true }
    s.Fits host ∧ ((s.disassemble ⟨[], "Foo"⟩).exec host).2.console.out = .stdout ∧
      ((s.disassemble ⟨[], "Foo"⟩).exec host).2.console.err = .stderr := by
  intro s script host
  have herrors : host.disk.locate true (Path.text ⟨.root, ["errors"]⟩) = .ok ["errors"] := rfl
  have htemp : s.FilesIn host ["temp"] := by
    have hdirectory : Disposable.directoryFor host s.configuration.tempDirectory =
        ⟨.root, ["temp"]⟩ := by decide +kernel
    exact ⟨by rw [hdirectory]; rfl, rfl⟩
  have hdisk : host.disk.WellFormed :=
    ⟨Tree.WellFormed.of_nodes (by decide), fun name hm => by cases hm⟩
  have hfits : s.Fits host := by
    refine ⟨⟨hdisk, ?_, fun fault h => (by cases h)⟩, ?_⟩
    · rintro path ⟨⟩
      decide
    · rintro store ⟨⟩
      refine .inl ⟨["errors"], .of_wellFormed hdisk.tree (by decide) herrors ⟨0o755, rfl⟩ ?_, ?_⟩
      · intro name node hnode
        cases hnode
      · intro hsame
        exact absurd (htemp.locate.symm.trans hsame.locate) (by simp)
  have h := disassemble_cleans_up s ⟨[], "Foo"⟩ ⟨.root, ["tool"]⟩ host rfl rfl hfits.toReady
  exact ⟨hfits, h.1, h.2.1⟩

/-- The gate stays up where no class file can be made, and a record that is a link into the directory of
the class files makes a new file there. -/
theorem disassemble_keeps_gate_and_follows_links :
    let s : Service := {
      backend := Backend.javap
      configuration := {
        toolPath := some ⟨.root, ["jdk"]⟩, tempDirectory := some ⟨.root, ["temp"]⟩ }
      store := some { directory := ⟨.root, ["errors"]⟩ } }
    let host : Host := {
      disk := { tree := ⟨[(["temp"], .directory 0o755), (["errors"], .directory 0o755),
        (["errors", "manifest.json"], .link "../temp"),
        (["errors", "20231114_221320_disassemble_disasm_0000000000000001.json"],
          .link "../temp/kept.json")]⟩ }
      gate := true
      openFault := some { kind := .osError, args := [.str "out of space"] } }
    let after := ((s.disassemble ⟨[], "Foo"⟩).exec host).2
    after.gate = true ∧ host.disk.tree.children ["temp"] = [] ∧
      after.disk.tree.children ["temp"] = ["kept.json"] := by
  decide +kernel

end Service

end Dissect
