/-
# Steps that are deaf to the environment

Two hosts stand beside each other if they have environments of their own and nothing else tells them
apart (`Beside`).  A step that neither reads nor changes the environment has one result on both, and
leaves them beside each other.

This holds of everything that a disassembly does around the run of its tool: making and deleting the
disposable file (`Disposable.create_beside`), capturing what is written (`Command.forward_beside`),
and recording what failed (`ErrorStore.record_beside`).
-/
import Dissect.Proofs.DisposableFiles
import Dissect.Service

namespace Dissect

open Files (Disk)

variable {α β : Type} {mine theirs : List (String × String)} {host other : Host}

/-! ## 1. Hosts beside each other -/

/-- The two hosts have the one and the other environment, and nothing else tells them apart. -/
structure Beside (mine theirs : List (String × String)) (host other : Host) : Prop where
  mine : host.environment = mine
  other : other = { host with environment := theirs }

namespace Beside

theorem refl (host : Host) (environment : List (String × String)) :
    Beside host.environment environment host { host with environment } := ⟨rfl, rfl⟩

theorem disk (h : Beside mine theirs host other) : host.disk = other.disk := by
  rw [h.other]

/-- A change of the host that neither looks at the environment nor touches it. -/
theorem map {f : Host → Host} (hkeeps : ∀ host, (f host).environment = host.environment)
    (hf : ∀ host environment, f { host with environment } = { f host with environment })
    (h : Beside mine theirs host other) : Beside mine theirs (f host) (f other) := by
  obtain ⟨hmine, rfl⟩ := h
  exact ⟨(hkeeps host).trans hmine, hf host theirs⟩

theorem withDisk (h : Beside mine theirs host other) (disk : Disk) :
    Beside mine theirs { host with disk } { other with disk } :=
  h.map (f := fun host => { host with disk }) (fun _ => rfl) fun _ _ => rfl

theorem noted (h : Beside mine theirs host other) (level : Level) (message : String) :
    Beside mine theirs (host.noted level message) (other.noted level message) :=
  h.map (f := fun host => host.noted level message) (fun _ => rfl) fun _ _ => rfl

end Beside

namespace Run

theorem note_beside (level : Level) (message : String) :
    (note level message).Agrees (Beside mine theirs) :=
  Agrees.modify fun _ _ h => h.noted level message

/-- A query that does not look at the environment. -/
theorem query_beside {f : Host → Except Fault α}
    (hf : ∀ host environment, f { host with environment } = f host) :
    (query f).Agrees (Beside mine theirs) :=
  Agrees.query fun host other h => by
    rw [h.other]
    exact (hf host theirs).symm

end Run

/-! ## 2. The error store -/

namespace ErrorStore

theorem save_beside (path : Path) (document : Json) :
    (save path document).Agrees (Beside mine theirs) := by
  unfold save
  cases Disk.pathFault? path.text with
  | some fault => exact Run.Agrees.throw_bind _ _
  | none =>
    refine Run.Agrees.get_bind fun host other h => ?_
    rw [← h.disk]
    cases host.disk.write path.text (Text.encode (document.writableText (some 2))) with
    | error e => exact Run.note_beside _ _ host other h
    | ok disk =>
      simp only [Run.exec_bind_ok (Run.exec_set _ _)]
      cases document.isWritable
      · exact ⟨rfl, h.withDisk disk⟩
      · exact ⟨rfl, h.withDisk disk⟩

theorem fetch_beside (path : Path) (shape : Shape) :
    (fetch path shape).Agrees (Beside mine theirs) := by
  refine Run.Agrees.get_bind fun host other h => ?_
  rw [← h.disk]
  rcases read host.disk path with fault | _ | document
  · simp only
    split
    · exact Run.Agrees.throw_bind _ _ host other h
    · exact ((Run.note_beside _ _).bind fun _ => Run.Agrees.pure _) host other h
  · exact ⟨rfl, h⟩
  · simp only
    split
    · exact ⟨rfl, h⟩
    · exact ((Run.note_beside _ _).bind fun _ => Run.Agrees.pure _) host other h

theorem manifest_beside (s : ErrorStore) : s.manifest.Agrees (Beside mine theirs) :=
  (fetch_beside _ _).bind fun _ => Run.Agrees.pure _

theorem stats_beside (s : ErrorStore) : s.stats.Agrees (Beside mine theirs) :=
  (fetch_beside _ _).bind fun _ => Run.Agrees.pure _

theorem deleteAll_beside : ∀ paths : List Path, (deleteAll paths).Agrees (Beside mine theirs)
  | [] => Run.Agrees.pure _
  | path :: rest => by
    refine Run.Agrees.get_bind fun host other h => ?_
    rw [← h.disk]
    cases host.disk.unlink path.text with
    | ok disk =>
      simp only [Run.exec_bind_ok (Run.exec_set _ _)]
      exact ((deleteAll_beside rest).bind fun _ => Run.Agrees.pure _) _ _ (h.withDisk disk)
    | error e =>
      exact ((Run.note_beside _ _).bind fun _ => deleteAll_beside rest) host other h

theorem readClock_beside : readClock.Agrees (Beside mine theirs) := by
  refine Run.Agrees.get_bind fun host other h => ?_
  obtain ⟨hmine, rfl⟩ := h
  exact ⟨rfl, hmine, rfl⟩

theorem freshId_beside : freshId.Agrees (Beside mine theirs) := by
  refine Run.Agrees.get_bind fun host other h => ?_
  obtain ⟨hmine, rfl⟩ := h
  exact ⟨rfl, hmine, rfl⟩

theorem makeRecord_beside (fault : Fault) (report : Report) :
    (makeRecord fault report).Agrees (Beside mine theirs) :=
  readClock_beside.bind fun _ => freshId_beside.bind fun _ =>
    (Run.Agrees.ofExcept _).bind fun _ => Run.Agrees.pure _

theorem updateStats_beside (s : ErrorStore) (stamp : Json)
    (operation errorType resultKind : String) :
    (s.updateStats stamp operation errorType resultKind).Agrees (Beside mine theirs) :=
  s.stats_beside.bind fun _ => (Run.Agrees.ofExcept _).bind fun _ =>
    (Run.Agrees.ofExcept _).bind fun _ => (Run.Agrees.ofExcept _).bind fun _ =>
      readClock_beside.bind fun _ => save_beside _ _

theorem deleteRecords_beside (s : ErrorStore) :
    ∀ entries : List ManifestEntry, (s.deleteRecords entries).Agrees (Beside mine theirs)
  | [] => Run.Agrees.pure _
  | _ :: rest => (Run.query_beside fun _ _ => rfl).bind fun paths =>
    (deleteAll_beside paths).bind fun _ => s.deleteRecords_beside rest

theorem prune_beside (s : ErrorStore) : s.prune.Agrees (Beside mine theirs) := by
  refine s.manifest_beside.bind fun entries => ?_
  split
  · exact Run.Agrees.pure _
  · exact (s.deleteRecords_beside _).bind fun _ => save_beside _ _

/-- **Recording is deaf to the environment.** -/
theorem record_beside (s : ErrorStore) (fault : Fault) (report : Report) :
    (s.record fault report).Agrees (Beside mine theirs) :=
  (makeRecord_beside fault report).bind fun _ => (Run.Agrees.ofExcept _).bind fun _ =>
    (save_beside _ _).bind fun _ => s.manifest_beside.bind fun _ => (save_beside _ _).bind fun _ =>
      (s.updateStats_beside _ _ _ _).bind fun _ => s.prune_beside.bind fun _ =>
        (Run.note_beside _ _).bind fun _ => Run.Agrees.pure _

end ErrorStore

/-! ## 3. The disposable file and the captured streams -/

namespace Disposable

/-- The files are made in the same way on both hosts. -/
theorem keepsAlike_beside : KeepsAlike (Beside mine theirs) where
  alike h := by
    obtain ⟨-, rfl⟩ := h
    exact ⟨rfl, rfl, rfl, rfl⟩
  disk h disk := h.withDisk disk
  names h namesTaken :=
    h.map (f := fun host => { host with namesTaken }) (fun _ => rfl) fun _ _ => rfl
  noted h level message := h.noted level message

theorem discard_beside (handle : Disposable) (h : Beside mine theirs host other) :
    Beside mine theirs (handle.discard host) (handle.discard other) :=
  keepsAlike_beside.discard h handle

/-- **Making the disposable file is deaf to the environment.** -/
theorem create_beside (data : Value) (directory : Option Path) :
    (create data directory).Agrees (Beside mine theirs) :=
  keepsAlike_beside.create_agrees data directory

end Disposable

namespace Command

theorem forward_beside (write : Console → String → Except Fault Console) (s : String) :
    (forward write s).Agrees (Beside mine theirs) := by
  unfold forward
  split
  · exact Run.Agrees.pure _
  · refine Run.Agrees.get_bind fun host other h => ?_
    obtain ⟨hmine, rfl⟩ := h
    simp only
    cases write host.console s with
    | ok console => exact ⟨rfl, hmine, rfl⟩
    | error fault => exact ⟨rfl, hmine, rfl⟩

/-- **A command is run in the environment that it is given**, and not in that of the host. -/
theorem call_beside (command : List String) (environment : Environment) (arguments : List String) :
    (call command environment arguments).Agrees (Beside mine theirs) := by
  refine (Run.query_beside fun _ _ => rfl).bind fun result => (forward_beside _ _).bind fun _ =>
    (forward_beside _ _).bind fun _ => ?_
  split
  · exact Run.Agrees.throw _
  · exact Run.Agrees.pure _

end Command

end Dissect
