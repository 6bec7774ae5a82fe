/-
# Recording in silence

Whether failures are recorded, and what the store is like in which they are, makes no difference to a
disassembly.  What it ends in depends on the run of the tool alone (`Service.comesTo`), and that is
over before anything is recorded.  Afterwards the host is the same but for the log, the supplies of
records and of time stamps, and the disk (`Host.SameButRecords`); and on the disk nothing differs
outside the store, where that has nothing to do with the class files
(`Service.disassemble_ignores_store`).
-/
import Dissect.Proofs.Endings

namespace Dissect

open Files (Disk Location Tree)

/-! ## 1. What recording changes -/

/-- The hosts are the same but for what recording a failure may change: the disk, the log, and the
supplies of records and of time stamps. -/
def Host.SameButRecords (host other : Host) : Prop :=
  ∃ disk log recordsTaken clock, other = { host with disk, log, recordsTaken, clock }

namespace Host.SameButRecords

variable {host other : Host}

theorem refl (host : Host) : host.SameButRecords host := ⟨_, _, _, _, rfl⟩

theorem noted (h : host.SameButRecords other) (level : Level) (message : String) :
    host.SameButRecords (other.noted level message) := by
  obtain ⟨disk, log, recordsTaken, clock, rfl⟩ := h
  exact ⟨_, _, _, _, rfl⟩

theorem unlocked (h : host.SameButRecords other) :
    (Service.setLock false host).SameButRecords (Service.setLock false other) := by
  obtain ⟨disk, log, recordsTaken, clock, rfl⟩ := h
  exact ⟨_, _, _, _, rfl⟩

/-- Two hosts that differ from a third one in records only differ so from each other. -/
theorem between {first second : Host} (h : host.SameButRecords first)
    (h' : host.SameButRecords second) : first.SameButRecords second := by
  obtain ⟨disk, log, recordsTaken, clock, rfl⟩ := h
  obtain ⟨disk', log', recordsTaken', clock', rfl⟩ := h'
  exact ⟨_, _, _, _, rfl⟩

/-- The steps of a store change nothing else. -/
theorem upheld (store : ErrorStore) (host : Host) :
    store.Upheld (fun _ => True) host.SameButRecords where
  write := fun _ _ _ _ h _ _ => by
    obtain ⟨disk, log, recordsTaken, clock, rfl⟩ := h
    exact ⟨_, _, _, _, rfl⟩
  unlink := fun _ _ _ h _ _ => by
    obtain ⟨disk, log, recordsTaken, clock, rfl⟩ := h
    exact ⟨_, _, _, _, rfl⟩
  noted := fun _ level message h => h.noted level message
  supplies := fun _ _ _ h => by
    obtain ⟨disk, log, recordsTaken, clock, rfl⟩ := h
    exact ⟨_, _, _, _, rfl⟩
  manifest := trivial
  stats := trivial
  recordPath := fun _ _ _ _ _ _ => trivial
  filesOf := fun _ _ _ _ _ _ _ => trivial

end Host.SameButRecords

namespace Service

variable {s : Service} {unit : ClassUnit} {root : Path} {host : Host}

/-- Telling the outcome of a run changes nothing but records. -/
theorem conclude_sameButRecords (s : Service) (unit : ClassUnit) (root : Path) (host : Host)
    (finished : Finished) : (s.conclude unit root finished).Keeps host.SameButRecords :=
  conclude_keeps s unit root (fun _ level message h => h.noted level message)
    (fun store _ fault _ ho =>
      ErrorStore.record_keeps (Host.SameButRecords.upheld store host) fault ho) finished

/-! ## 2. Services that differ in their stores -/

/-- The service with another store, or with none. -/
def recordingTo (s : Service) (store : Option ErrorStore) : Service := { s with store }

/-- What the making of the class file and the run of the tool come to. -/
def comesTo (s : Service) (unit : ClassUnit) (root : Path) (host : Host) : Finished :=
  match s.makeFile unit host with
  | (.error fault, _) => ⟨"", .error fault⟩
  | (.ok resource, made) => s.finishedOf root resource made

/-- The run of the tool and the verdict on it have nothing to do with the store. -/
theorem run_recordingTo (s : Service) (store : Option ErrorStore) :
    (s.recordingTo store).run = s.run := rfl

theorem cleaned_recordingTo (s : Service) (store : Option ErrorStore) :
    (s.recordingTo store).cleaned = s.cleaned := by
  unfold cleaned
  rw [run_recordingTo]

theorem verdict_recordingTo (s : Service) (store : Option ErrorStore) :
    (s.recordingTo store).verdict = s.verdict := rfl

theorem makeFile_recordingTo (s : Service) (store : Option ErrorStore) :
    (s.recordingTo store).makeFile = s.makeFile := rfl

theorem finishedOf_recordingTo (s : Service) (store : Option ErrorStore) :
    (s.recordingTo store).finishedOf = s.finishedOf := rfl

theorem comesTo_recordingTo (s : Service) (store : Option ErrorStore) :
    (s.recordingTo store).comesTo = s.comesTo := by
  unfold comesTo
  rw [makeFile_recordingTo, finishedOf_recordingTo]

/-- A disassembly ends in the verdict on what the run comes to. -/
theorem disassemble_verdict (hroot : s.configuration.toolPath = some root) (unit : ClassUnit)
    (host : Host) :
    ((s.disassemble unit).exec host).1 = s.verdict unit root (s.comesTo unit root host) := by
  have hresult := disassemble_result hroot unit host
  unfold comesTo
  cases hmake : s.makeFile unit host with
  | mk result made =>
    rw [hmake] at hresult
    cases result <;> exact hresult

theorem disassemble_comesTo (hroot : s.configuration.toolPath = some root) (unit : ClassUnit)
    (host : Host) (store : Option ErrorStore) :
    (((s.recordingTo store).disassemble unit).exec host).1 =
      s.verdict unit root (s.comesTo unit root host) := by
  rw [← verdict_recordingTo s store, ← comesTo_recordingTo s store]
  exact disassemble_verdict (by exact hroot) unit host

/-- Without a tool there is nothing to be recorded. -/
theorem disassemble_unconfigured (hnone : s.configuration.toolPath = none) (unit : ClassUnit)
    (host : Host) (store : Option ErrorStore) :
    ((s.recordingTo store).disassemble unit).exec host =
      (.ok s.classifier.notConfigured, host.noted .warning
        (s.backend.label ++ ": tool path not configured, not disassembling " ++ unit.name)) := by
  unfold disassemble recordingTo
  simp only [hnone]
  rfl

/-- When the run is over only records are changed. -/
theorem disassemble_sameButRecords (hroot : s.configuration.toolPath = some root) (unit : ClassUnit)
    (host : Host) (store : Option ErrorStore) :
    (setLock false (s.cleaned unit root host)).SameButRecords
      (((s.recordingTo store).disassemble unit).exec host).2 := by
  obtain ⟨finished, hafter⟩ :=
    disassemble_host (s := s.recordingTo store) (by exact hroot) unit host
  rw [cleaned_recordingTo] at hafter
  rw [hafter]
  exact (conclude_sameButRecords (s.recordingTo store) unit root (s.cleaned unit root host)
    finished _ (Host.SameButRecords.refl _)).unlocked

/-- **Recording changes no outcome.**  On every host, whatever the disk holds in their directories and
whether it can be written there or not, a service with one store, with another one or with none ends a
disassembly in the same outcome or in the same failure, so that no outcome becomes a failure; and the
hosts afterwards are the same but for records.  So it is on two hosts, however their stores differ, if
the run of the tool comes to the same on both.  Outside the stores the disks have the same nodes, if
the stores fit: they have nothing to do with the class files. -/
theorem disassemble_ignores_store (s : Service) (unit : ClassUnit) (host : Host)
    (a b : Option ErrorStore) :
    let first := ((s.recordingTo a).disassemble unit).exec host
    let second := ((s.recordingTo b).disassemble unit).exec host
    first.1 = second.1 ∧ first.2.SameButRecords second.2 ∧
    (∀ root other, s.configuration.toolPath = some root →
      s.comesTo unit root host = s.comesTo unit root other →
        first.1 = (((s.recordingTo b).disassemble unit).exec other).1) ∧
    (s.invoker = Invocation.invoke → (s.recordingTo a).Fits host → (s.recordingTo b).Fits host →
      ∀ l, (s.recordingTo a).OutsideStore host.disk l → (s.recordingTo b).OutsideStore host.disk l →
        first.2.disk.tree.get? l = second.2.disk.tree.get? l) := by
  intro first second
  cases hroot : s.configuration.toolPath with
  | none =>
    have hsame : first = second :=
      (disassemble_unconfigured hroot unit host a).trans
        (disassemble_unconfigured hroot unit host b).symm
    refine ⟨congrArg Prod.fst hsame, ?_, fun root other h => (by cases h),
      fun _ _ _ l _ _ => by rw [hsame]⟩
    rw [hsame]
    exact Host.SameButRecords.refl _
  | some root =>
    have hfirst : first.1 = s.verdict unit root (s.comesTo unit root host) :=
      disassemble_comesTo hroot unit host a
    refine ⟨hfirst.trans (disassemble_comesTo hroot unit host b).symm, ?_, ?_, ?_⟩
    · exact (disassemble_sameButRecords hroot unit host a).between
        (disassemble_sameButRecords hroot unit host b)
    · intro root' other hroot' hsame
      cases hroot'
      rw [hfirst, hsame]
      exact (disassemble_comesTo hroot unit other b).symm
    · intro hinvoker hfits hfits' l hl hl'
      have hout := disassemble_outside_store unit (by exact hroot) (by exact hinvoker)
        hfits hl
      have hout' := disassemble_outside_store unit (by exact hroot) (by exact hinvoker)
        hfits' hl'
      rw [cleaned_recordingTo] at hout hout'
      exact hout.trans hout'.symm

/-- A tool that is missing, without a store and with one whose manifest is no document. -/
theorem disassemble_ignores_damaged_store :
    let s : Service := {
      backend := Backend.javap
      configuration := {
        toolPath := some ⟨.root, ["jdk"]⟩, tempDirectory := some ⟨.root, ["temp"]⟩ } }
    let store : ErrorStore := { directory := ⟨.root, ["errors"]⟩ }
    let host : Host := {
      disk := { tree := ⟨[(["temp"], .directory 0o755), (["errors"], .directory 0o755),
        (["errors", "manifest.json"], .file (.bytes [0x7b]) 0o644)]⟩ } }
    (((s.recordingTo none).disassemble ⟨[], "Foo"⟩).exec host).1 =
        (((s.recordingTo (some store)).disassemble ⟨[], "Foo"⟩).exec host).1 ∧
      (((s.recordingTo none).disassemble ⟨[], "Foo"⟩).exec host).2.disk.tree.get? ["temp"] =
        (((s.recordingTo (some store)).disassemble ⟨[], "Foo"⟩).exec host).2.disk.tree.get?
          ["temp"] := by
  intro s store host
  have herrors : host.disk.locate true (Path.text ⟨.root, ["errors"]⟩) = .ok ["errors"] := rfl
  have hdisk : host.disk.WellFormed :=
    ⟨Tree.WellFormed.of_nodes (by decide), fun name hm => by cases hm⟩
  have htemp : ∀ path, s.configuration.tempDirectory = some path → path.Proper := by
    rintro path ⟨⟩
    decide
  have hnone : (s.recordingTo none).Fits host :=
    ⟨⟨hdisk, htemp, fun fault h => (by cases h)⟩, fun store h => (by cases h)⟩
  have hsettled : store.Settled host.disk ["errors"] := by
    refine .of_nodes (by decide) herrors ⟨0o755, rfl⟩ fun entry hmem hbelow => ?_
    simp only [host, List.mem_cons, List.not_mem_nil, or_false] at hmem
    rcases hmem with rfl | rfl | rfl
    · exact absurd hbelow.1 (by decide)
    · exact absurd rfl hbelow.2
    · exact ⟨"manifest.json", rfl, rfl, by decide, by decide⟩
  have hsome : (s.recordingTo (some store)).Fits host := by
    refine ⟨⟨hdisk, htemp, fun fault h => (by cases h)⟩, fun other h => ?_⟩
    cases h
    refine .inl ⟨["errors"], hsettled.toEnclosed, fun hsame => ?_⟩
    have hdirectory : Disposable.directoryFor host
        (s.recordingTo (some store)).configuration.tempDirectory = ⟨.root, ["temp"]⟩ := by
      decide +kernel
    have hwhere : host.disk.locate true (Path.text ⟨.root, ["temp"]⟩) = .ok ["temp"] := rfl
    have hlocate := hsame.locate
    rw [hdirectory, hwhere] at hlocate
    exact absurd hlocate (by simp)
  have hout : (s.recordingTo none).OutsideStore host.disk ["temp"] := fun _ _ h => (by cases h)
  have hout' : (s.recordingTo (some store)).OutsideStore host.disk ["temp"] := by
    intro other storeLoc h hloc hbelow
    cases h
    cases herrors.symm.trans hloc
    exact absurd hbelow.1 (by decide)
  have h := disassemble_ignores_store s ⟨[], "Foo"⟩ host none (some store)
  exact ⟨h.1, h.2.2.2 rfl hnone hsome ["temp"] hout hout'⟩

end Service

end Dissect
