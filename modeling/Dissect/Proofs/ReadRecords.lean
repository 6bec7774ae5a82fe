/-
# Records read back

A record is kept in two places: all of it in a file of its own, and the main points in an entry of the
manifest.  The file is read again as the record (`Usable.get_first`).  The entry is read and written
with every change of the manifest, which leaves its time stamp and its id (`Shows.stamp`,
`Shows.id`), and changes its texts no more than reading them back does.
-/
import Dissect.Proofs.RecordNames
import Dissect.Proofs.StampOrder
import Dissect.Proofs.WholeDocuments

namespace Dissect

open Files (Disk Location)

/-! ## 1. Parts of records -/

/-- Reading leaves a finite number as it is. -/
theorem Json.IsFinite.reread {document : Json} (h : IsFinite document) :
    document.reread = document := by
  cases h <;> rfl

/-- The names of classes are texts in ASCII. -/
theorem Fault.pairedText_name (fault : Fault) : Json.pairedText fault.name = fault.name := by
  have hall : ∀ kind ∈ FaultClass.all, ∀ c ∈ kind.name.toList, c.toNat < 0x80 := by decide +kernel
  exact Json.pairedText_of_ascii (hall _ (FaultClass.mem_all fault.kind))

theorem Fault.reread_name (fault : Fault) : (Json.str fault.name).reread = .str fault.name := by
  rw [Json.reread, fault.pairedText_name]

namespace ErrorRecord

/-- The record as it is read after it has been written. -/
def reread (r : ErrorRecord) : ErrorRecord where
  timestamp := r.timestamp.reread
  errorId := r.errorId.reread
  operation := r.operation.reread
  resultKind := r.resultKind.reread
  errorType := r.errorType.reread
  errorMessage := r.errorMessage.reread
  backend := r.backend.reread
  className := r.className.reread
  toolRoot := r.toolRoot.reread
  toolOutput := r.toolOutput.reread
  traceback := r.traceback.reread

theorem reread_members (r : ErrorRecord) :
    (Json.obj r.members).reread = .obj r.reread.members := by
  have hkeys : r.members.map Prod.fst = required ++ optional := rfl
  exact Json.reread_obj (by rw [hkeys]; decide) (by rw [hkeys]; decide)

/-- The name of the file of a record; empty for a time stamp that has no date. -/
def fileName (r : ErrorRecord) : String :=
  match Moment.ofStamp r.timestamp with
  | .ok moment =>
    moment.compact ++ "_" ++ r.operation.plainText ++ "_" ++ r.errorId.plainText ++ ".json"
  | .error _ => ""

end ErrorRecord

/-! ## 2. Entries -/

namespace ManifestEntry

/-- The entry as it is read after it has been written. -/
def reread (e : ManifestEntry) : ManifestEntry := e.map fun member => (member.1, member.2.reread)

/-- The keys of the entry of a record. -/
def keys : List String :=
  ["error_id", "timestamp", "operation", "result_kind", "error_type", "error_message", "class_name"]

variable {e : ManifestEntry} {r : ErrorRecord}

theorem keys_reread (e : ManifestEntry) : (reread e).map Prod.fst = e.map Prod.fst := by
  unfold reread
  rw [List.map_map]
  rfl

theorem reread_obj (h : e.map Prod.fst = keys) : (Json.obj e).reread = .obj (reread e) :=
  Json.reread_obj (by rw [h]; decide) (by rw [h]; decide)

theorem lookup_reread (e : ManifestEntry) (key : String) :
    (reread e).lookup key = (e.lookup key).map Json.reread := by
  unfold reread
  induction e with
  | nil => rfl
  | cons member rest ih =>
    obtain ⟨k, value⟩ := member
    rw [List.map_cons, List.lookup_cons, List.lookup_cons]
    cases key == k with
    | true => rfl
    | false => exact ih

/-- The entry is that of the record, written and read any number of times. -/
inductive Shows (r : ErrorRecord) : ManifestEntry → Prop where
  | made : Shows r (ofRecord r r.errorMessage.plainText)
  | reread {e : ManifestEntry} (h : Shows r e) : Shows r (reread e)

namespace Shows

variable (h : Shows r e)
include h

theorem keys : e.map Prod.fst = ManifestEntry.keys := by
  induction h with
  | made => rfl
  | reread h ih => rw [keys_reread, ih]

/-- What does not change when it is read back stays in the entry. -/
theorem lookup {key : String} {value : Json} (hv : value.reread = value)
    (hkey : (ofRecord r r.errorMessage.plainText).lookup key = some value) :
    e.lookup key = some value := by
  induction h with
  | made => exact hkey
  | reread h ih => rw [lookup_reread, ih, Option.map_some, hv]

theorem stamp (hr : r.timestamp.IsFinite) : e.stamp = r.timestamp := by
  unfold ManifestEntry.stamp
  rw [h.lookup hr.reread rfl]
  rfl

theorem id (hr : r.errorId.reread = r.errorId) : e.id = r.errorId := by
  unfold ManifestEntry.id
  rw [h.lookup hr rfl]
  rfl

/-- The entry is well formed. -/
theorem ofJson? (hstamp : r.timestamp.IsFinite) (hid : r.errorId.reread = r.errorId) :
    ofJson? (.obj e) = some e := by
  unfold ManifestEntry.ofJson?
  dsimp only
  rw [h.lookup hstamp.reread rfl, h.lookup hid rfl, Option.any_some, hstamp.isNumber]
  rfl

end Shows

end ManifestEntry

/-! ## 3. Records that the store makes -/

namespace ErrorStore

variable {s : ErrorStore} {d : Disk} {loc : Location} {host : Host} {r : ErrorRecord} {n m : Nat}

/-- The record was made of some failure, with the id of the given number, a time stamp that is
accepted and an operation that may stand in a file name. -/
def Made (n : Nat) (r : ErrorRecord) : Prop :=
  ∃ host fault report message, r = recordOf host fault report message ∧
    host.recordsTaken + 1 = n ∧ Accepted host.clock.read.1 ∧ NamesFile report.operation

theorem fileName_recordOf {fault : Fault} {report : Report} {message : String} {moment : Moment}
    (h : Moment.ofStamp host.clock.read.1 = .ok moment) :
    (recordOf host fault report message).fileName =
      recordName moment report.operation (host.recordsTaken + 1) := by
  have hstamp : (recordOf host fault report message).timestamp = host.clock.read.1 := rfl
  unfold ErrorRecord.fileName
  rw [hstamp, h]
  rfl

namespace Made

variable (h : Made n r)
include h

theorem id : r.errorId = .str (idOf n) := by
  obtain ⟨host, fault, report, message, rfl, rfl, -⟩ := h
  rfl

theorem accepted : Accepted r.timestamp := by
  obtain ⟨host, fault, report, message, rfl, -, haccepted, -⟩ := h
  exact haccepted

theorem isFinite : r.timestamp.IsFinite := h.accepted.dated.isFinite

theorem reread_id : r.errorId.reread = r.errorId := by
  rw [h.id, Json.reread, Json.pairedText_of_ascii fun c hc => (idOf_ascii n c hc).2]

theorem readable : Json.Readable Json.maxNesting (.obj r.members) := by
  obtain ⟨host, fault, report, message, rfl, -, haccepted, -⟩ := h
  exact readable_record haccepted message _

theorem fileName : ∃ moment operation, r.fileName = recordName moment operation n ∧
    NamesFile operation := by
  obtain ⟨host, fault, report, message, rfl, rfl, haccepted, ho⟩ := h
  obtain ⟨moment, hmoment⟩ := Moment.ofStamp_ok_iff.mpr haccepted.dated
  exact ⟨moment, report.operation, fileName_recordOf hmoment, ho⟩

theorem fileName_plain : Path.IsPlain r.fileName ∧ r.fileName ≠ ".." := by
  obtain ⟨moment, operation, hname, ho⟩ := h.fileName
  rw [hname]
  exact recordName_plain moment ho.slash n

theorem fileName_nameable : Files.Disk.Nameable r.fileName := by
  obtain ⟨moment, operation, hname, ho⟩ := h.fileName
  rw [hname]
  exact nameable_recordName moment ho.nameable n

theorem fileName_ne : r.fileName ≠ manifestName ∧ r.fileName ≠ statsName := by
  obtain ⟨moment, operation, hname, -⟩ := h.fileName
  rw [hname]
  exact recordName_ne moment operation n

/-- The name ends like those of documents. -/
theorem fits_json : Files.Glob.fits "*.json" r.fileName = true := by
  obtain ⟨moment, operation, hname, -⟩ := h.fileName
  have hpattern : "*.json".toList = '*' :: ".json".toList := by decide
  rw [Files.Glob.fits_star hpattern (by decide), hname, recordName_toList]
  exact ((List.suffix_append (idOf n).toList _).trans (List.suffix_cons '_' _)).trans
    (List.suffix_append _ _)

/-- The pattern for an id describes the file of the record exactly if it has the id. -/
theorem describes_iff : describes (idOf m) r.fileName = true ↔ idOf n = idOf m := by
  obtain ⟨moment, operation, hname, -⟩ := h.fileName
  rw [hname]
  exact describes_recordName

end Made

/-- Entries of the manifest that show records are read as entries that show them. -/
theorem rereadEntries_eq {entries : List ManifestEntry}
    (h : ∀ e ∈ entries, ∃ n r, Made n r ∧ ManifestEntry.Shows r e) :
    rereadEntries entries = entries.map ManifestEntry.reread := by
  unfold rereadEntries
  induction entries with
  | nil => rfl
  | cons e rest ih =>
    obtain ⟨n, r, hr, hshows⟩ := h e List.mem_cons_self
    rw [List.map_cons, ManifestEntry.reread_obj hshows.keys, List.filterMap_cons,
      hshows.reread.ofJson? hr.isFinite hr.reread_id,
      ih fun e' he' => h e' (List.mem_cons_of_mem _ he'), List.map_cons]

/-! ## 4. Finding records -/

/-- **There is no record with an id** whose pattern describes no file name in the store. -/
theorem Usable.get_none (h : Usable s host.disk loc) {id : String} (hid : ¬ Refused id)
    (hmissing : ∀ name ∈ host.disk.tree.children loc, describes id name = false) :
    (s.get? id).exec host = (.ok none, host) := by
  have hnone : (host.disk.tree.children loc).filter (describes id) = [] :=
    List.filter_eq_nil_iff.mpr fun name hname => by simp [hmissing name hname]
  have hquery : (Run.query fun host => s.filesOf host.disk id).exec host = (.ok [], host) := by
    rw [Run.exec_query, h.filesOf_eq h.nameable h.fits hid, hnone, List.map_nil]
  unfold get?
  rw [Run.exec_bind_ok hquery]
  rfl

/-- **A record is read back from its file**, where that is the first one that the pattern describes. -/
theorem Usable.get_first (h : Usable s host.disk loc) {id : String} (hid : ¬ Refused id)
    (hr : Made n r) (hf : Fits s r.fileName) {others : List String}
    (hfirst : (host.disk.tree.children loc).filter (describes id) = r.fileName :: others)
    {mode : Nat} (hnode : nodeAt host.disk loc r.fileName =
      some (.file (.bytes (fileBytes (.obj r.members))) mode)) :
    ∃ after, (s.get? id).exec host = (.ok (some r.reread), after) ∧ host.OnlyLogged after := by
  obtain ⟨hn, hup⟩ := hr.fileName_plain
  have hquery : (Run.query fun host => s.filesOf host.disk id).exec host =
      (.ok (s.directory.child r.fileName :: others.map s.directory.child), host) := by
    rw [Run.exec_query, h.filesOf_eq h.nameable h.fits hid, hfirst, List.map_cons]
  have hread : read host.disk (s.directory.child r.fileName) =
      .ok (some (Json.obj r.members).reread) :=
    h.read_file hn hup hf (Files.Disk.nameable_child h.nameable hn hr.fileName_nameable) hr.readable
      hnode
  rw [ErrorRecord.reread_members] at hread
  obtain ⟨after, hfetch, hlogged⟩ := fetch_exec .table (not_tooDeep hread) rfl
  rw [held_of_read hread rfl] at hfetch
  refine ⟨after, ?_, hlogged⟩
  unfold get?
  rw [Run.exec_bind_ok hquery, firstRecord, Run.exec_bind_ok hfetch]
  rfl

/-- The record of an id that one file name has. -/
theorem Usable.get_listed (h : Usable s host.disk loc) (hr : Made n r) (hf : Fits s r.fileName)
    (honly : (host.disk.tree.children loc).filter (describes (idOf n)) = [r.fileName])
    {mode : Nat} (hnode : nodeAt host.disk loc r.fileName =
      some (.file (.bytes (fileBytes (.obj r.members))) mode)) :
    ∃ after, (s.get? (idOf n)).exec host = (.ok (some r.reread), after) ∧ host.OnlyLogged after :=
  h.get_first (not_refused_idOf n) hr hf honly hnode

end ErrorStore

end Dissect
