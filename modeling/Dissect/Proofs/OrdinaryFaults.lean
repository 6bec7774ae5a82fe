/-
# The failures of the library's own steps

A failure is ordinary unless it is a request to stop: to exit, to interrupt, to close a generator.
Tool code raises what it likes; the library itself raises ordinary failures only.  So a request to
stop that comes out of a step came out of tool code.  What is proved here is that part of the
library which tells and records a failed run: whatever the failure of the tool was, it fails only in
failures of the library's own, which are ordinary and can be told (`ErrorStore.record_fails`,
`Classifier.classify_fails`).
-/
import Dissect.Classify
import Dissect.Proofs.DisposableFiles
import Dissect.Proofs.Recording
import Dissect.Tool.JavaTools
import Dissect.Tool.ModuleTools

namespace Dissect

open Files (Disk Errno)

/-- The failure is one that a caller may catch. -/
def Fault.IsOrdinary (fault : Fault) : Prop := fault.kind.isOrdinary = true

/-- An ordinary failure is no request to exit. -/
theorem Fault.IsOrdinary.not_exit {fault : Fault} (h : fault.IsOrdinary) :
    fault.isA .systemExit = false := by
  unfold IsOrdinary at h
  unfold Fault.isA
  cases hk : fault.kind <;> rw [hk] at h <;> first | rfl | cases h

/-- Whatever belongs to a class of ordinary failures is ordinary. -/
theorem Fault.IsOrdinary.of_isA {fault : Fault} {kind : FaultClass}
    (hkind : kind.isOrdinary = true) (h : fault.isA kind = true) : fault.IsOrdinary :=
  FaultClass.isA_trans h hkind

/-- A request to exit is no ordinary failure. -/
theorem Fault.not_ordinary_of_exit {fault : Fault} (h : fault.isA .systemExit = true) :
    ¬ fault.IsOrdinary := fun ho => by
  rw [ho.not_exit] at h
  cases h

/-- The failure is one of the library's own: an ordinary one that can be told. -/
structure Fault.IsOwn (fault : Fault) : Prop where
  ordinary : fault.IsOrdinary
  told : fault.trouble? = none

/-- A failure can be told exactly if its position is no trouble and all parts of its message can be
written. -/
theorem Fault.trouble?_eq_none_iff {fault : Fault} : fault.trouble? = none ↔
    fault.positionTrouble? = none ∧ ∀ part ∈ fault.parts, part.obstacle? = none := by
  rw [trouble?, Option.or_eq_none_iff, Option.map_eq_none_iff, List.findSome?_eq_none_iff]

/-- A short number can be written. -/
theorem Value.obstacle?_of_short {n : Int} (h : n.natAbs < 1000) :
    (Value.int n).obstacle? maxLevels = Option.none := by
  have hlimit : 1000 ≤ Json.tooLong := by decide +kernel
  show (if n.natAbs < Json.tooLong then Option.none else some Obstacle.digits) = Option.none
  rw [if_pos (Nat.lt_of_lt_of_le h hlimit)]

/-- A failure with a text can be told. -/
theorem Fault.trouble?_ofText (kind : FaultClass) (text : String) :
    (Fault.ofText kind text).trouble? = none := by
  cases kind <;> rfl

theorem Fault.IsOwn.ofText {kind : FaultClass} (h : kind.isOrdinary = true) (text : String) :
    (Fault.ofText kind text).IsOwn :=
  ⟨h, Fault.trouble?_ofText kind text⟩

theorem Fault.tell_of_told {fault : Fault} (h : fault.trouble? = none) :
    fault.tell = .ok fault.message := by
  rw [tell, h]

/-- It does not matter what was being handled. -/
theorem Fault.IsOwn.whileHandling {fault : Fault} (h : fault.IsOwn) (context : Fault) :
    (fault.whileHandling context).IsOwn :=
  ⟨h.ordinary, h.told⟩

/-- Whatever failure a result is, it is one of the described ones. -/
def FailsAs {α : Type} (E : Fault → Prop) (result : Except Fault α) : Prop :=
  ∀ fault, result = .error fault → E fault

/-- A result is a failure only if it is an ordinary one. -/
abbrev FailsOrdinarily {α : Type} (result : Except Fault α) : Prop :=
  FailsAs Fault.IsOrdinary result

/-- A result is a failure only if it is one of the library's own. -/
abbrev FailsOwn {α : Type} (result : Except Fault α) : Prop := FailsAs Fault.IsOwn result

namespace FailsAs

variable {α β : Type} {E F : Fault → Prop}

protected theorem ok (a : α) : FailsAs E (.ok a : Except Fault α) := fun _ h => by cases h

protected theorem pure (a : α) : FailsAs E (Pure.pure a : Except Fault α) :=
  fun _ h => by cases h

protected theorem error {fault : Fault} (h : E fault) :
    FailsAs E (.error fault : Except Fault α) := fun _ he => by
  cases he
  exact h

protected theorem throw {fault : Fault} (h : E fault) :
    FailsAs E (MonadExcept.throw fault : Except Fault α) := fun _ he => by
  cases he
  exact h

theorem mono {result : Except Fault α} (h : ∀ fault, E fault → F fault)
    (hr : FailsAs E result) : FailsAs F result := fun fault he => h fault (hr fault he)

/-- Nothing follows a failure. -/
theorem throw_bind {fault : Fault} (h : E fault) (next : α → Except Fault β) :
    FailsAs E ((MonadExcept.throw fault : Except Fault α) >>= next) := fun _ he => by
  cases he
  exact h

protected theorem bind {result : Except Fault α} {next : α → Except Fault β}
    (hr : FailsAs E result) (hn : ∀ a, FailsAs E (next a)) : FailsAs E (result >>= next) := by
  intro fault h
  cases result with
  | error trouble =>
    cases h
    exact hr _ rfl
  | ok a => exact hn a fault h

theorem mapM {f : α → Except Fault β} (hf : ∀ a, FailsAs E (f a)) :
    ∀ l : List α, FailsAs E (l.mapM f)
  | [] => by
    rw [List.mapM_nil]
    exact FailsAs.pure _
  | a :: rest => by
    rw [List.mapM_cons]
    exact (hf a).bind fun _ => (mapM hf rest).bind fun _ => FailsAs.pure _

theorem filterAuxM {f : α → Except Fault Bool} (hf : ∀ a, FailsAs E (f a)) :
    ∀ l acc : List α, FailsAs E (l.filterAuxM f acc)
  | [], _ => FailsAs.pure _
  | a :: rest, _ => (hf a).bind fun _ => filterAuxM hf rest _

theorem filterM {f : α → Except Fault Bool} (hf : ∀ a, FailsAs E (f a)) (l : List α) :
    FailsAs E (l.filterM f) :=
  (filterAuxM hf l []).bind fun _ => FailsAs.pure _

end FailsAs

namespace FailsOwn

/-- An error of the operating system. -/
theorem errno (e : Errno) (file : String) : (e.fault file).IsOwn := by
  have hparts : (e.fault file).parts =
      [.fixed "[Errno ", .plain (.int e.number), .fixed "] ", .plain (.str e.text), .fixed ": ",
        .quoted (.str file)] := by cases e <;> rfl
  have hshort : e.number.natAbs < 1000 := by cases e <;> decide
  have hnumber := Value.obstacle?_of_short hshort
  refine ⟨by cases e <;> rfl, Fault.trouble?_eq_none_iff.mpr ⟨by cases e <;> rfl, ?_⟩⟩
  rw [hparts]
  simp only [List.forall_mem_cons, List.not_mem_nil, false_implies, implies_true, and_true]
  exact ⟨rfl, hnumber, rfl, rfl, rfl, rfl⟩

theorem name {α : Type} (file : String) (result : Except Errno α) :
    FailsOwn (Errno.name file result) := by
  cases result with
  | ok a => exact FailsAs.ok a
  | error e => exact FailsAs.error (errno e file)

/-- What is one of the library's own is ordinary. -/
theorem ordinarily {α : Type} {result : Except Fault α} (h : FailsOwn result) :
    FailsOrdinarily result :=
  h.mono fun _ => Fault.IsOwn.ordinary

end FailsOwn

open FailsOwn (errno)

/-! ## 1. Files -/

/-- A failure to convert from a position on, with texts for the codec and the reason, can be
told. -/
theorem Fault.trouble?_encoding (codec text reason : String) (position width : Nat) :
    Fault.trouble? { kind := .unicodeEncodeError, args := [.str codec, .str text, .int position,
      .int (position + width), .str reason] } = none := by
  refine trouble?_eq_none_iff.mpr ⟨?_, ?_⟩
  · have hbefore : isBeforeText (.int position) (.int (position + width)) = false := by
      simp only [isBeforeText, Value.whole?]
      rw [decide_eq_false (by omega : ¬ (position : Int) < 0), Bool.false_and]
    simp only [positionTrouble?, hbefore]
    rfl
  · show ∀ part ∈ codecParts _ _ _ _, _
    simp only [codecParts, List.forall_mem_cons, List.not_mem_nil, false_implies, implies_true,
      and_true]
    exact ⟨rfl, rfl, rfl, rfl⟩

theorem Files.Disk.pathFault?_own {path : String} {fault : Fault}
    (h : Disk.pathFault? path = some fault) : fault.IsOwn := by
  unfold Disk.pathFault? Disk.encodingFault? at h
  cases hi : path.toList.findIdx? Disk.isUnencodable with
  | some position =>
    rw [hi] at h
    cases h
    exact ⟨rfl, Fault.trouble?_encoding ..⟩
  | none =>
    simp only [hi, Option.map_none, Option.none_or] at h
    split at h
    · cases h
      exact .ofText rfl _
    · cases h

theorem Files.Disk.check_fails (d : Disk) (path : Path) (property : Files.Node → Bool) :
    FailsOwn (d.check path property) := fun fault h => by
  obtain ⟨e, rfl⟩ := Disk.check_error h
  exact errno e path.text

theorem Files.Disk.resolve_fails (d : Disk) (path : Path) : FailsOwn (d.resolve path) := by
  intro fault h
  rcases Disk.resolve_error_iff.mp h with htext | ⟨-, -, rfl⟩
  · exact Disk.pathFault?_own htext
  · exact (Fault.IsOwn.ofText rfl _).whileHandling _

/-- A failure to convert bytes, with texts for the codec and the reason, can be told. -/
theorem Fault.trouble?_decoding (codec reason : String) (data : Text.Bytes) (start stop : Int) :
    Fault.trouble? { kind := .unicodeDecodeError, args := [.str codec, .bytes data, .int start,
      .int stop, .str reason] } = none := by
  refine trouble?_eq_none_iff.mpr ⟨rfl, ?_⟩
  show ∀ part ∈ codecParts _ _ _ _, _
  simp only [codecParts, List.forall_mem_cons, List.not_mem_nil, false_implies, implies_true,
    and_true]
  exact ⟨rfl, rfl, rfl, rfl⟩

theorem Files.Disk.readText_fails (d : Disk) (path : String) :
    FailsOwn (d.readText path) := by
  unfold Disk.readText
  split
  · rename_i fault h
    exact FailsAs.throw_bind (Disk.pathFault?_own h) _
  · refine (FailsOwn.name _ _).bind fun data => ?_
    split
    · exact FailsAs.pure _
    · exact FailsAs.throw ⟨rfl, Fault.trouble?_decoding ..⟩

/-- Looking for files by a pattern.  The induction is on the components of the pattern. -/
theorem Files.Glob.select_fails (disk : Disk) : ∀ (components : List String) (directory : Path),
    FailsOwn (Files.Glob.select disk directory components)
  | [], _ => FailsAs.ok _
  | component :: rest, directory => by
    have ih := select_fails disk rest
    unfold Files.Glob.select
    split
    · exact (FailsAs.mapM ih _).bind fun _ => FailsAs.pure _
    split
    · have hrest : ∀ paths : List Path, FailsOwn
          (do return (← paths.mapM fun path => Files.Glob.select disk path rest).flatten) :=
        fun paths => (FailsAs.mapM ih paths).bind fun _ => FailsAs.pure _
      simp only
      split
      · exact (FailsAs.pure _).bind hrest
      · exact (FailsAs.filterM (fun path => Disk.check_fails _ _ _) _).bind hrest
    · have hrest : ∀ there : Bool, FailsOwn
          (if there then Files.Glob.select disk (directory.child component) rest else pure []) := by
        intro there
        cases there with
        | true => exact ih _
        | false => exact FailsAs.pure _
      simp only
      split
      · exact (Disk.check_fails _ _ _).bind hrest
      · exact (Disk.check_fails _ _ _).bind hrest

theorem Files.Glob.paths_fails (disk : Disk) (directory : Path) (pattern : String) :
    FailsOwn (Files.Glob.paths disk directory pattern) := by
  unfold Files.Glob.paths
  simp only
  split
  · exact FailsAs.error (.ofText rfl _)
  · refine (Disk.check_fails _ _ _).bind fun there => ?_
    split
    · exact FailsAs.pure _
    · exact Files.Glob.select_fails disk _ directory

/-! ## 2. Telling a failure -/

namespace Fault

/-- The classes of the failures in which telling a failure can end, obstacles to writing a value
apart. -/
def tellingTroubles : List FaultClass :=
  [.typeError, .attributeError, .overflowError, .memoryError, .systemError]

/-- The failure is one in which telling a failure can end: an obstacle to writing a value, or a
failure of one of the other classes that can itself be told. -/
inductive IsTellingTrouble : Fault → Prop where
  | obstacle (obstacle : Value.Obstacle) : IsTellingTrouble (ofObstacle obstacle)
  | other {fault : Fault} (kind : tellingTroubles.contains fault.kind = true)
      (told : fault.trouble? = none) : IsTellingTrouble fault

namespace IsTellingTrouble

variable {fault : Fault}

theorem ofText {kind : FaultClass} (h : tellingTroubles.contains kind = true) (text : String) :
    (Fault.ofText kind text).IsTellingTrouble :=
  .other h (trouble?_ofText kind text)

/-- The classes of all of them. -/
theorem kind_mem (h : fault.IsTellingTrouble) :
    fault.kind ∈ .valueError :: .recursionError :: tellingTroubles := by
  cases h with
  | obstacle obstacle => cases obstacle <;> decide
  | other kind _ =>
    exact List.mem_cons_of_mem _ (List.mem_cons_of_mem _ (List.contains_iff_mem.mp kind))

/-- The only ones among them that are about a value are about numbers of too many digits. -/
theorem eq_digits (h : fault.IsTellingTrouble) (hvalue : fault.kind = .valueError) :
    fault = ofObstacle .digits := by
  cases h with
  | obstacle obstacle =>
    cases obstacle with
    | digits => rfl
    | depth => cases hvalue
  | other kind _ =>
    rw [hvalue] at kind
    cases kind

theorem isOwn (h : fault.IsTellingTrouble) : fault.IsOwn := by
  have hall : ∀ kind ∈ .valueError :: .recursionError :: tellingTroubles,
      kind.isOrdinary = true := by decide
  refine ⟨hall fault.kind h.kind_mem, ?_⟩
  cases h with
  | obstacle obstacle => cases obstacle <;> exact trouble?_ofText _ _
  | other _ told => exact told

end IsTellingTrouble

end Fault

open Fault (IsTellingTrouble)

namespace Value

theorem demandWritten_troubles (v : Value) : FailsAs IsTellingTrouble v.demandWritten := by
  unfold demandWritten
  split
  · exact FailsAs.error (.obstacle _)
  · exact FailsAs.ok _

theorem told_troubles (v : Value) : FailsAs IsTellingTrouble v.told :=
  v.demandWritten_troubles.bind fun _ => FailsAs.pure _

theorem demandSummand_troubles (v : Value) : FailsAs IsTellingTrouble v.demandSummand := by
  unfold demandSummand
  split
  · exact FailsAs.ok _
  · exact FailsAs.error (.ofText rfl _)

theorem demandMinuend_troubles (v : Value) : FailsAs IsTellingTrouble v.demandMinuend := by
  unfold demandMinuend
  split
  · exact FailsAs.ok _
  · exact FailsAs.error (.ofText rfl _)

end Value

namespace SourcePlace

variable (place : SourcePlace)

theorem demandLines_troubles : FailsAs IsTellingTrouble place.demandLines :=
  place.line.demandWritten_troubles.bind fun _ => place.endLine.demandWritten_troubles

theorem naming_troubles : FailsAs IsTellingTrouble place.naming := by
  unfold naming
  split
  · exact FailsAs.pure _
  · exact (Value.told_troubles _).bind fun _ => FailsAs.pure _
  · simp only
    split
    · exact (Value.told_troubles _).bind fun _ => FailsAs.pure _
    · exact (FailsAs.pure _).bind fun _ => FailsAs.pure _

theorem stop_troubles : FailsAs IsTellingTrouble place.stop := by
  unfold stop
  refine FailsAs.bind ?_ fun given => ?_
  · unfold givenStop
    split
    · exact FailsAs.error (.ofText rfl _)
    · exact FailsAs.ok _
  · split
    · exact (Value.demandSummand_troubles _).bind fun _ => FailsAs.pure _
    · exact FailsAs.pure _

theorem markCount_troubles (start : Int) (stop : Option Value) :
    FailsAs IsTellingTrouble (markCount start stop) := by
  unfold markCount
  split
  · exact FailsAs.ok _
  · split
    · exact FailsAs.error (.ofText rfl _)
    · split
      · exact FailsAs.error (.ofText rfl _)
      · split
        · exact FailsAs.error (.other rfl rfl)
        · exact FailsAs.ok _

theorem marks_troubles (lost : Nat) (line : List Char) :
    FailsAs IsTellingTrouble (place.marks lost line) := by
  unfold marks
  split
  · exact FailsAs.pure _
  · refine (stop_troubles place).bind fun stop => (Value.demandMinuend_troubles _).bind fun _ =>
      (Value.demandMinuend_troubles _).bind fun _ => ?_
    split
    · exact FailsAs.pure _
    · split
      · exact FailsAs.error (.ofText rfl _)
      · exact (markCount_troubles _ _).bind fun _ => FailsAs.pure _

theorem excerpt_troubles : FailsAs IsTellingTrouble place.excerpt := by
  unfold excerpt
  refine FailsAs.bind ?_ fun text => ?_
  · unfold sourceLine
    split
    · exact FailsAs.ok _
    · exact FailsAs.ok _
    · exact FailsAs.error (.ofText rfl _)
    · exact FailsAs.error (.ofText rfl _)
    · exact FailsAs.error (.ofText rfl _)
  · split
    · exact FailsAs.pure _
    · exact (marks_troubles place _ _).bind fun _ => FailsAs.pure _

theorem shown_troubles : FailsAs IsTellingTrouble place.shown :=
  place.naming_troubles.bind fun _ => place.excerpt_troubles.bind fun _ => FailsAs.pure _

end SourcePlace

namespace Fault

/-- What keeps a message from being told is one of these failures. -/
theorem trouble?_troubles {fault trouble : Fault} (h : fault.trouble? = some trouble) :
    trouble.IsTellingTrouble := by
  rw [trouble?, Option.or_eq_some_iff] at h
  rcases h with hposition | ⟨-, hpart⟩
  · unfold positionTrouble? at hposition
    split at hposition
    · split at hposition <;> cases hposition
      exact .other rfl rfl
    · split at hposition <;> cases hposition
      exact .other rfl rfl
    · cases hposition
  · obtain ⟨obstacle, -, rfl⟩ := Option.map_eq_some_iff.mp hpart
    exact .obstacle obstacle

theorem tell_troubles (fault : Fault) : FailsAs IsTellingTrouble fault.tell := by
  unfold tell
  split
  · rename_i trouble h
    exact FailsAs.error (trouble?_troubles h)
  · exact FailsAs.ok _

/-- A failure made of another one's message is made so, or is the trouble with that message. -/
theorem retold_cases (make : String → Fault) (fault : Fault) :
    (∃ message, fault.tell = .ok message ∧ fault.retold make = (make message).causedBy fault) ∨
    (∃ trouble, fault.tell = .error trouble ∧ trouble.IsTellingTrouble ∧
      fault.retold make = trouble.whileHandling fault) := by
  unfold retold
  cases h : fault.tell with
  | ok message => exact .inl ⟨message, rfl, rfl⟩
  | error trouble => exact .inr ⟨trouble, rfl, tell_troubles fault trouble h, rfl⟩

/-- A failure that is retold is ordinary, if the one that is made of its message is. -/
theorem retold_ordinary {make : String → Fault} (hmake : ∀ message, (make message).IsOrdinary)
    (fault : Fault) : (fault.retold make).IsOrdinary := by
  rcases retold_cases make fault with ⟨message, -, h⟩ | ⟨trouble, -, htrouble, h⟩
  · rw [h]
    exact hmake message
  · rw [h]
    exact htrouble.isOwn.ordinary

theorem demandLines_troubles (fault : Fault) : FailsAs IsTellingTrouble fault.demandLines := by
  unfold demandLines
  split
  · exact SourcePlace.demandLines_troubles _
  · exact FailsAs.ok _

/-- The induction is on the history of the failure. -/
theorem demandHistory_troubles : ∀ fault : Fault, FailsAs IsTellingTrouble fault.demandHistory
  | ⟨_, _, some cause, _, _⟩ =>
    (demandLines_troubles _).bind fun _ => demandHistory_troubles cause
  | ⟨_, _, none, some context, _⟩ =>
    (demandLines_troubles _).bind fun _ => demandHistory_troubles context
  | ⟨_, _, none, none, _⟩ => demandLines_troubles _

theorem ownReport_troubles (fault : Fault) : FailsAs IsTellingTrouble fault.ownReport := by
  have hplace : FailsAs IsTellingTrouble fault.shownPlace := by
    unfold shownPlace
    split
    · exact SourcePlace.shown_troubles _
    · exact FailsAs.ok _
  have hmessage : FailsAs IsTellingTrouble fault.reportedMessage := by
    unfold reportedMessage
    split
    · simp only
      split
      · exact Value.told_troubles _
      · exact FailsAs.ok _
    · exact FailsAs.ok _
  exact hplace.bind fun _ => hmessage.bind fun _ => FailsAs.pure _

/-- The induction is on the history of the failure. -/
theorem reports_troubles : ∀ fault : Fault, FailsAs IsTellingTrouble fault.reports
  | ⟨_, _, some cause, _, _⟩ =>
    (reports_troubles cause).bind fun _ => (ownReport_troubles _).bind fun _ => FailsAs.pure _
  | ⟨_, _, none, some context, _⟩ =>
    (reports_troubles context).bind fun _ => (ownReport_troubles _).bind fun _ => FailsAs.pure _
  | ⟨_, _, none, none, _⟩ => ownReport_troubles _

theorem report_troubles (fault : Fault) : FailsAs IsTellingTrouble fault.report :=
  (demandHistory_troubles fault).bind fun _ => reports_troubles fault

theorem tell_fails (fault : Fault) : FailsOwn fault.tell :=
  (tell_troubles fault).mono fun _ => IsTellingTrouble.isOwn

theorem report_fails (fault : Fault) : FailsOwn fault.report :=
  (report_troubles fault).mono fun _ => IsTellingTrouble.isOwn

end Fault

/-- **Classifying a failure ends in an outcome or in a failure that can be told.** -/
theorem Classifier.classify_fails (c : Classifier) (fault : Fault) (className : String)
    (toolRoot : Option Path) (captured : String) :
    FailsOwn (c.classify fault className toolRoot captured) := by
  unfold classify
  split
  · exact FailsAs.ok _
  · exact (Fault.tell_fails fault).bind fun _ => FailsAs.pure _
  · exact ((Fault.report_fails fault).bind fun _ => FailsAs.pure _).bind fun _ =>
      (Fault.tell_fails fault).bind fun _ => FailsAs.pure _

/-! ## 3. Making a class file, and finding a tool -/

namespace Disposable

theorem claim_fails (disk : Disk) (directory : Path) (suffix : String) : ∀ attempts n : Nat,
    FailsOrdinarily (claim disk directory suffix attempts n)
  | 0, _ => FailsAs.error rfl
  | attempts + 1, n => by
    unfold claim
    simp only
    split
    · rename_i fault h
      exact FailsAs.error (Disk.pathFault?_own h).ordinary
    · split
      · exact FailsAs.ok _
      · exact claim_fails disk directory suffix attempts (n + 1)
      · exact FailsAs.error (errno _ _).ordinary

/-- A file is filled, or the failure is an ordinary one, if the system has only such. -/
theorem fill_fails_ordinarily {host : Host} {path : String} {data : Text.Bytes} {fault : Fault}
    (hopen : ∀ trouble, host.openFault = some trouble → trouble.IsOrdinary)
    (h : ((fill path (.bytes data)).exec host).1 = .error fault) : fault.IsOrdinary := by
  rcases Option.eq_none_or_eq_some host.openFault with ho | ⟨given, ho⟩
  · cases hw : host.disk.write path data with
    | ok written =>
      rw [fill_exec ho hw] at h
      cases h
    | error e =>
      unfold fill at h
      rw [Run.exec_bind_ok (Run.exec_get _)] at h
      simp only [ho, bytesOf] at h
      rw [Run.exec_bind_ok (Run.exec_ofExcept (.ok data) _), Run.exec_changeDisk, hw] at h
      cases h
      exact (errno e path).ordinary
  · rw [fill_fails ho] at h
    cases h
    exact hopen given ho

/-- A file is made, or the failure is an ordinary one, if the system has only such. -/
theorem create_fails {host after : Host} {data : Text.Bytes} {directory : Option Path}
    {fault : Fault} (hopen : ∀ trouble, host.openFault = some trouble → trouble.IsOrdinary)
    (h : (create (.bytes data) directory).exec host = (.error fault, after)) :
    fault.IsOrdinary := by
  rw [create_exec] at h
  cases hc : claim host.disk (directoryFor host directory) ".class" maxAttempts host.namesTaken with
  | error trouble =>
    rw [hc] at h
    cases h
    unfold recast
    split
    · exact Fault.retold_ordinary (fun message => by rfl) trouble
    · exact claim_fails _ _ _ _ _ _ hc
  | ok made =>
    obtain ⟨disk, path, namesTaken⟩ := made
    rw [hc] at h
    cases hf : (fill path (.bytes data)).exec { host with disk, namesTaken } with
    | mk result filled =>
      simp only [hf] at h
      cases result with
      | ok _ => cases h
      | error trouble =>
        simp only at h
        split at h
        · cases h
          exact Fault.retold_ordinary (fun message => by rfl) trouble
        · cases h
          exact fill_fails_ordinarily (by exact hopen) (congrArg Prod.fst hf)

end Disposable

theorem append_ne_empty {front : String} (h : front ≠ "") (rest : String) : front ++ rest ≠ "" :=
  fun he => h (String.append_eq_empty_iff.mp he).1

/-- The failures to find a tool: an error of the system when a path is asked about, a path that cannot
be resolved, or a failure of the loader's own, which says something. -/
inductive FindingFault (root : Path) : Fault → Prop
  | asked (e : Errno) (path : String) : FindingFault root (e.fault path)
  | unresolved {disk : Disk} {path : Path} {fault : Fault} :
      disk.resolve path = .error fault → FindingFault root fault
  | load {message : String} : message ≠ "" → FindingFault root (ModuleTools.loadFault root message)
  | access {message : String} :
      message ≠ "" → FindingFault root (ModuleTools.accessFault root message)

namespace FindingFault

variable {root : Path}

theorem check (disk : Disk) (path : Path) (property : Files.Node → Bool) :
    FailsAs (FindingFault root) (disk.check path property) := fun fault h => by
  obtain ⟨e, rfl⟩ := Disk.check_error h
  exact .asked e path.text

theorem isOrdinary {fault : Fault} (h : FindingFault root fault) : fault.IsOrdinary := by
  cases h with
  | asked e path => exact (errno e path).ordinary
  | unresolved hresolve => exact (Disk.resolve_fails _ _ _ hresolve).ordinary
  | load => rfl
  | access => rfl

end FindingFault

namespace JavaTools

variable (tools : JavaTools) (host : Host)

theorem jarCommand_troubles : FailsAs (FindingFault tools.root) (tools.jarCommand host) := by
  have hjava : FailsAs (FindingFault tools.root) (tools.findJava host) := by
    unfold findJava
    split
    · split
      · exact FailsAs.pure _
      · refine (FindingFault.check _ _ _).bind fun there => ?_
        split <;> exact FailsAs.pure _
    · exact FailsAs.pure _
  unfold jarCommand
  simp only
  split
  · exact FailsAs.throw_bind (.load (append_ne_empty (by decide) _)) _
  split
  · exact FailsAs.throw_bind (.access (append_ne_empty (by decide) _)) _
  refine hjava.bind fun java => ?_
  split
  · exact FailsAs.throw (.load (by decide))
  · exact FailsAs.pure _

theorem firstCommand_troubles (disk : Disk) : ∀ candidates : List Path,
    FailsAs (FindingFault tools.root) (tools.firstCommand disk candidates)
  | [] => FailsAs.error (.load (append_ne_empty (by decide) _))
  | candidate :: rest => by
    unfold firstCommand
    refine (FindingFault.check _ _ _).bind fun there => ?_
    split
    · split
      · exact FailsAs.pure _
      · exact FailsAs.throw (.access (append_ne_empty (by decide) _))
    · exact firstCommand_troubles disk rest

theorem command_troubles : FailsAs (FindingFault tools.root) (tools.command host) := by
  unfold command
  refine (FindingFault.check _ _ _).bind fun there => ?_
  simp only
  split
  · exact FailsAs.throw_bind (FindingFault.load (append_ne_empty (by decide) _)) _
  refine (FindingFault.check _ _ _).bind fun file => ?_
  split
  · exact jarCommand_troubles tools host
  split
  · exact FailsAs.throw (.access (append_ne_empty (by decide) _))
  · exact firstCommand_troubles tools _ _

theorem command_fails : FailsOrdinarily (tools.command host) :=
  (tools.command_troubles host).mono fun _ => FindingFault.isOrdinary

theorem environment_fails : FailsOrdinarily (tools.environment host) := by
  unfold environment
  refine (Disk.check_fails _ _ _).ordinarily.bind fun directory => ?_
  split
  · refine (Disk.check_fails _ _ _).ordinarily.bind fun inside => ?_
    split <;> exact FailsAs.pure _
  · exact FailsAs.pure _

end JavaTools

/-- Starting a program ends in an ordinary failure, if in one. -/
theorem Command.run_fails (disk : Disk) (environment : Command.Environment)
    (command : List String) : FailsOrdinarily (Command.run disk environment command) := by
  unfold Command.run
  split
  · exact FailsAs.error rfl
  · rename_i fault hfault
    refine FailsAs.error ?_
    unfold Command.unusable? at hfault
    split at hfault
    · cases hfault
      rfl
    · obtain ⟨text, -, htext⟩ := List.exists_of_findSome?_eq_some hfault
      exact (Disk.pathFault?_own htext).ordinary
  · split
    · exact FailsAs.error (errno _ _).ordinary
    · exact (FailsOwn.name _ _).ordinarily

namespace ModuleTools

variable (tools : ModuleTools)

theorem checkedRoot_troubles (disk : Disk) :
    FailsAs (FindingFault tools.root) (tools.checkedRoot disk) := by
  unfold checkedRoot
  refine (FindingFault.check _ _ _).bind fun there => ?_
  simp only
  split
  · exact FailsAs.throw_bind (FindingFault.load (append_ne_empty (by decide) _)) _
  refine (FindingFault.check _ _ _).bind fun directory => ?_
  split
  · exact FailsAs.throw_bind (FindingFault.load (append_ne_empty (by decide) _)) _
  split
  · exact FailsAs.throw_bind (FindingFault.access (append_ne_empty (by decide) _)) _
  · exact fun fault h => .unresolved h

theorem checkedRoot_fails (disk : Disk) : FailsOrdinarily (tools.checkedRoot disk) :=
  (tools.checkedRoot_troubles disk).mono fun _ => FindingFault.isOrdinary

theorem routine_fails (root : Path) (host : Host) : FailsOrdinarily (tools.routine root host) := by
  have hinside : ∀ origin, FailsOrdinarily (liesUnder host.disk root origin) := fun origin =>
    (Disk.resolve_fails _ _).ordinarily.bind fun _ => FailsAs.pure _
  unfold routine
  simp only
  split
  · refine (hinside _).bind fun inside => ?_
    split
    · exact FailsAs.error rfl
    split
    · exact FailsAs.pure _
    · exact FailsAs.throw rfl
  · split
    · exact FailsAs.pure _
    · exact FailsAs.throw rfl

end ModuleTools

/-! ## 4. Recording a failure -/

namespace ErrorStore

variable {s : ErrorStore}

theorem read_fails (disk : Disk) (path : Path) : FailsOwn (read disk path) := by
  have hparse : ∀ text : String,
      FailsOwn ((Json.parse text).mapError refusalFault) := by
    intro text fault h
    cases hp : Json.parse text with
    | ok document =>
      rw [hp] at h
      cases h
    | error refusal =>
      rw [hp] at h
      cases h
      cases refusal <;> exact .ofText rfl _
  unfold read
  refine (Disk.check_fails _ _ _).bind fun there => ?_
  split
  · exact FailsAs.pure _
  · exact (Disk.readText_fails _ _).bind fun text => (hparse text).bind fun _ =>
      FailsAs.pure _

theorem save_fails (path : Path) (document : Json) :
    (save path document).Fails Fault.IsOwn := by
  rw [save_eq]
  split
  · rename_i fault h
    exact Run.Fails.throw (Disk.pathFault?_own h)
  · refine Run.Fails.get.bind fun host => ?_
    split
    · refine (Run.Fails.set _).bind fun _ => ?_
      split
      · exact Run.Fails.throw (.ofText rfl _)
      · exact Run.Fails.pure _
    · exact Run.Fails.note _ _

theorem fetch_fails (path : Path) (shape : Shape) : (fetch path shape).Fails Fault.IsOwn := by
  unfold fetch
  refine Run.Fails.get.bind fun host => ?_
  split
  · rename_i fault h
    have htrouble := read_fails host.disk path fault h
    split
    · exact (Run.Fails.throw htrouble).bind fun _ => (Run.Fails.note _ _).bind fun _ =>
        Run.Fails.pure _
    · exact (Run.Fails.note _ _).bind fun _ => Run.Fails.pure _
  · exact Run.Fails.pure _
  · split
    · exact Run.Fails.pure _
    · exact (Run.Fails.note _ _).bind fun _ => Run.Fails.pure _

theorem manifest_fails (s : ErrorStore) : s.manifest.Fails Fault.IsOwn :=
  (fetch_fails _ _).bind fun _ => Run.Fails.pure _

theorem readClock_fails : readClock.Fails Fault.IsOwn :=
  Run.Fails.get.bind fun _ => (Run.Fails.set _).bind fun _ => Run.Fails.pure _

theorem makeRecord_fails (fault : Fault) (report : Report) :
    (makeRecord fault report).Fails Fault.IsOwn := by
  have hid : freshId.Fails Fault.IsOwn :=
    Run.Fails.get.bind fun _ => (Run.Fails.set _).bind fun _ => Run.Fails.pure _
  exact readClock_fails.bind fun _ => hid.bind fun _ =>
    (Run.Fails.ofExcept (Fault.tell_fails fault)).bind fun _ => Run.Fails.pure _

/-- A year beyond the system's calendar. -/
theorem yearOutOfRange_own : Moment.yearOutOfRange.IsOwn := by
  have hnumber := Value.obstacle?_of_short (n := Errno.valueTooLarge.number) (by decide)
  refine ⟨rfl, Fault.trouble?_eq_none_iff.mpr ⟨rfl, ?_⟩⟩
  show ∀ part ∈ [Fault.Part.fixed "[Errno ", .plain (.int Errno.valueTooLarge.number), .fixed "] ",
    .plain (.str Errno.valueTooLarge.text)], _
  simp only [List.forall_mem_cons, List.not_mem_nil, false_implies, implies_true, and_true]
  exact ⟨rfl, hnumber, rfl, rfl⟩

theorem recordPath_fails (s : ErrorStore) (stamp : Json) (operation id : String) :
    FailsOwn (s.recordPath stamp operation id) := by
  unfold recordPath Moment.ofStamp
  refine FailsAs.bind ?_ fun moment => FailsAs.pure _
  refine FailsAs.bind ?_ fun t => ?_
  · unfold Moment.seconds
    split
    · exact FailsAs.ok _
    · exact FailsAs.ok _
    · exact FailsAs.error (.ofText rfl _)
    · split
      · exact FailsAs.ok _
      · exact FailsAs.error (.ofText rfl _)
    · exact FailsAs.error (.ofText rfl _)
  · simp only
    split
    · exact FailsAs.error (.ofText rfl _)
    split
    · exact FailsAs.error yearOutOfRange_own
    split
    · exact FailsAs.error (.ofText rfl _)
    · exact FailsAs.pure _

theorem countIn_fails (stats : List (String × Json)) (table item : String) :
    FailsOwn (countIn stats table item) := by
  unfold countIn
  refine FailsAs.bind ?_ fun count => FailsAs.pure _
  unfold addOne
  split
  · exact FailsAs.ok _
  · exact FailsAs.ok _
  · exact FailsAs.error (.ofText rfl _)

theorem updateStats_fails (stamp : Json) (operation errorType resultKind : String) :
    (s.updateStats stamp operation errorType resultKind).Fails Fault.IsOwn := by
  have hstats : s.stats.Fails Fault.IsOwn :=
    (fetch_fails _ _).bind fun _ => Run.Fails.pure _
  exact hstats.bind fun _ => (Run.Fails.ofExcept (countIn_fails _ _ _)).bind fun _ =>
    (Run.Fails.ofExcept (countIn_fails _ _ _)).bind fun _ =>
      (Run.Fails.ofExcept (countIn_fails _ _ _)).bind fun _ =>
        readClock_fails.bind fun _ => save_fails _ _

theorem deleteAll_fails : ∀ paths : List Path, (deleteAll paths).Fails Fault.IsOwn
  | [] => Run.Fails.pure _
  | path :: rest => by
    have ih := deleteAll_fails rest
    refine Run.Fails.get.bind fun host => ?_
    split
    · exact (Run.Fails.set _).bind fun _ => ih.bind fun _ => Run.Fails.pure _
    · exact (Run.Fails.note _ _).bind fun _ => ih

theorem deleteRecords_fails (s : ErrorStore) : ∀ entries : List ManifestEntry,
    (s.deleteRecords entries).Fails Fault.IsOwn
  | [] => Run.Fails.pure _
  | _ :: rest =>
    (Run.Fails.query fun host => Files.Glob.paths_fails host.disk _ _).bind fun paths =>
      (deleteAll_fails paths).bind fun _ => deleteRecords_fails s rest

theorem prune_fails (s : ErrorStore) : s.prune.Fails Fault.IsOwn := by
  refine (manifest_fails s).bind fun entries => ?_
  split
  · exact Run.Fails.pure _
  · exact (deleteRecords_fails s _).bind fun _ => save_fails _ _

/-- **Recording a failure only ever fails in a failure that can be told.** -/
theorem record_fails (s : ErrorStore) (fault : Fault) (report : Report) :
    (s.record fault report).Fails Fault.IsOwn :=
  (makeRecord_fails fault report).bind fun _ =>
    (Run.Fails.ofExcept (recordPath_fails s _ _ _)).bind fun _ =>
      (save_fails _ _).bind fun _ => (manifest_fails s).bind fun _ => (save_fails _ _).bind fun _ =>
        (updateStats_fails _ _ _ _).bind fun _ => (prune_fails s).bind fun _ =>
          (Run.Fails.note _ _).bind fun _ => Run.Fails.pure _

end ErrorStore

end Dissect
