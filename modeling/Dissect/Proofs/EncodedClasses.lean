/-
# A class given as base64

A class file on the disk and its bytes given as base64 are disassembled alike, but for one failure:
from the same host the two functions that are offered for this give the same text, end in the same
failure where they end in one, and leave the same host, unless the tool ends in a failure whose
message shows a number of too many digits to be written
(`Functions.disassembleClass_eq_disassembleClassBytes`).

Two things carry this.  The strict reading of base64 undoes the padded writing of it, whatever the
number of bytes (`Text.base64Decode?_base64Encode`): what is written is sextets and padding, and
three bytes are four sextets.  And the function for files, which tells the caller of some failures
and lets others out, is hardly ever asked to tell of one that comes out of the disassembly itself:
such a failure is a request to stop, or the trouble of telling what the tool ended in, and of these
only the trouble with a long number belongs to a class of failures that are told.
-/
import Dissect.Proofs.Escapes
import Mathlib.Data.List.Basic

namespace Dissect

/-! ## 1. Reading what was written -/

namespace Text

/-- The values of the base64 digits of bytes. -/
def sextets : Bytes → List Nat
  | a :: b :: c :: rest =>
    a.toNat / 4 :: (a.toNat % 4 * 16 + b.toNat / 16) :: (b.toNat % 16 * 4 + c.toNat / 64) ::
      (c.toNat % 64) :: sextets rest
  | [a, b] => [a.toNat / 4, a.toNat % 4 * 16 + b.toNat / 16, b.toNat % 16 * 4]
  | [a] => [a.toNat / 4, a.toNat % 4 * 16]
  | [] => []

/-- The number of padding signs after the digits of bytes. -/
def paddingOf : Bytes → Nat
  | _ :: _ :: _ :: rest => paddingOf rest
  | [_, _] => 1
  | [_] => 2
  | [] => 0

/-- Padded base64 is the digits of the sextets, and then padding. -/
theorem base64Chars_eq : ∀ bytes : Bytes,
    base64Chars bytes =
      (sextets bytes).map base64Char ++ List.replicate (paddingOf bytes) '='
  | _ :: _ :: _ :: rest => by simp [base64Chars, sextets, paddingOf, base64Chars_eq rest]
  | [_, _] => rfl
  | [_] => rfl
  | [] => rfl

theorem sextets_lt : ∀ (bytes : Bytes), ∀ n ∈ sextets bytes, n < 64
  | a :: b :: c :: rest => by
    have ih := sextets_lt rest
    have ha := a.toNat_lt
    have hb := b.toNat_lt
    have hc := c.toNat_lt
    simp only [sextets, List.forall_mem_cons]
    exact ⟨by omega, by omega, by omega, by omega, ih⟩
  | [a, b] => by
    have ha := a.toNat_lt
    have hb := b.toNat_lt
    simp only [sextets, List.forall_mem_cons]
    exact ⟨by omega, by omega, by omega, fun _ h => by cases h⟩
  | [a] => by
    have ha := a.toNat_lt
    simp only [sextets, List.forall_mem_cons]
    exact ⟨by omega, by omega, fun _ h => by cases h⟩
  | [] => fun _ h => by cases h

/-- A byte is known by its number. -/
theorem byte_eq {n : Nat} {b : UInt8} (h : n = b.toNat) : UInt8.ofNat n = b := by
  rw [h, UInt8.ofNat_toNat]

/-- The bytes of the sextets of bytes are those bytes. -/
theorem base64Bytes_sextets : ∀ bytes : Bytes, base64Bytes (sextets bytes) = bytes
  | a :: b :: c :: rest => by
    have ha := a.toNat_lt
    have hb := b.toNat_lt
    have hc := c.toNat_lt
    simp only [sextets, base64Bytes, base64Bytes_sextets rest, List.cons.injEq, and_true]
    exact ⟨byte_eq (by omega), byte_eq (by omega), byte_eq (by omega)⟩
  | [a, b] => by
    have ha := a.toNat_lt
    have hb := b.toNat_lt
    simp only [sextets, base64Bytes, List.cons.injEq, and_true]
    exact ⟨byte_eq (by omega), byte_eq (by omega)⟩
  | [a] => by
    have ha := a.toNat_lt
    simp only [sextets, base64Bytes, List.cons.injEq, and_true]
    exact byte_eq (by omega)
  | [] => rfl

/-- The padding suits the digits. -/
theorem paddingSuits_sextets : ∀ bytes : Bytes,
    paddingSuits (sextets bytes).length (paddingOf bytes) = true
  | a :: b :: c :: rest => by
    have ih := paddingSuits_sextets rest
    simp only [sextets, paddingOf, List.length_cons]
    unfold paddingSuits at ih ⊢
    rw [show ((sextets rest).length + 1 + 1 + 1 + 1) % 4 = (sextets rest).length % 4 by omega]
    split at ih <;> simp_all
  | [_, _] => rfl
  | [_] => rfl
  | [] => rfl

theorem base64Digit?_base64Char {n : Nat} (h : n < 64) : base64Digit? (base64Char n) = some n := by
  have hall : ∀ k : Fin 64, base64Digit? (base64Char k.val) = some k.val := by decide
  exact hall ⟨n, h⟩

/-- **Base64 that was written is read back**, for any bytes. -/
theorem base64Decode?_base64Encode (bytes : Bytes) :
    base64Decode? (base64Encode bytes) = some bytes := by
  have hdigit : ∀ n ∈ sextets bytes, base64Digit? (base64Char n) = some n :=
    fun n hn => base64Digit?_base64Char (sextets_lt bytes n hn)
  have hall : ∀ c ∈ (sextets bytes).map base64Char, (base64Digit? c).isSome = true := by
    intro c hc
    obtain ⟨n, hn, rfl⟩ := List.mem_map.mp hc
    rw [hdigit n hn]
    rfl
  have hpadding : ∀ n, (List.replicate n '=').takeWhile (fun c => (base64Digit? c).isSome) = [] ∧
      (List.replicate n '=').dropWhile (fun c => (base64Digit? c).isSome) =
        List.replicate n '=' := by
    intro n
    cases n with
    | zero => exact ⟨rfl, rfl⟩
    | succ n =>
      rw [List.replicate_succ]
      exact ⟨List.takeWhile_cons_of_neg (by decide), List.dropWhile_cons_of_neg (by decide)⟩
  have hvalues : ((sextets bytes).map base64Char).filterMap base64Digit? = sextets bytes := by
    rw [List.filterMap_map]
    exact (List.filterMap_congr (g := some) hdigit).trans List.filterMap_some
  unfold base64Decode? base64Encode
  rw [String.toList_ofList, base64Chars_eq]
  simp only [List.takeWhile_append_of_pos hall, List.dropWhile_append_of_pos hall,
    (hpadding _).1, (hpadding _).2, List.append_nil, List.length_map, List.length_replicate,
    paddingSuits_sextets, hvalues, base64Bytes_sextets, List.all_replicate]
  simp

end Text

/-! ## 2. What is told of a disassembly -/

open Functions (isTold)

/-- The failure about a number of too many digits is an ordinary one. -/
theorem Value.digitsFault_ordinary : Value.digitsFault.IsOrdinary := by
  rw [Fault.IsOrdinary]
  rfl

/-- Of the troubles of telling a failure only the one with a number of too many digits is told. -/
theorem Fault.IsTellingTrouble.isTold_iff {fault : Fault} (h : fault.IsTellingTrouble) :
    isTold fault = true ↔ fault = Value.digitsFault := by
  constructor
  · intro htold
    have hall : ∀ kind ∈ .recursionError :: Fault.tellingTroubles, ∀ told ∈
        [FaultClass.fileNotFoundError, .pathTraversalError, .fileSizeError, .valueError, .osError],
        kind.isA told = false := by decide
    rcases List.mem_cons.mp h.kind_mem with hvalue | hother
    · exact h.eq_digits hvalue
    · have hkind := hall fault.kind hother
      simp only [List.forall_mem_cons] at hkind
      obtain ⟨hmissing, houtside, hsize, hvalue, hsystem, -⟩ := hkind
      simp [isTold, Functions.isCallerFault, Fault.isA, hmissing, houtside, hsize, hvalue,
        hsystem] at htold
  · rintro rfl
    rfl

/-- **The file is told of, the disassembly hardly**: of the failures that come out of a disassembly,
whatever runs the tool, only the one about a number of too many digits belongs to those that the
caller is told. -/
theorem Service.isTold_iff_of_disassemble {s : Service} {unit : ClassUnit} {host : Host}
    {fault : Fault} (h : ((s.disassemble unit).exec host).1 = .error fault) :
    isTold fault = true ↔ fault = Value.digitsFault := by
  cases hroot : s.configuration.toolPath with
  | none =>
    unfold disassemble at h
    rw [hroot] at h
    cases h
  | some root =>
    rw [disassemble_result hroot] at h
    by_cases hordinary : fault.IsOrdinary
    · obtain ⟨_, -, -, huntold⟩ := (verdict_ordinary_iff hordinary).mp h
      exact huntold.isTellingTrouble.isTold_iff
    · refine iff_of_false (fun htold => hordinary (.of_isTold htold)) ?_
      rintro rfl
      exact hordinary Value.digitsFault_ordinary

/-! ## 3. The two functions -/

namespace Functions

variable {s : Service} {host : Host}

/-- What the function for files makes of what a disassembly came to: a failure about a number of too
many digits is told. -/
def ofDisassembly : Except Fault String × Host → Except Fault String × Host
  | (.error fault, after) =>
    (if isTold fault then .ok ("Error: " ++ fault.message) else .error fault, after)
  | (.ok text, after) => (.ok text, after)

/-- A file that is usable and can be read is disassembled under its stem; the text, or the failure,
is made of that of the disassembly. -/
theorem disassembleClass_exec {classPath : String} {path : Path} {data : Text.Bytes}
    (hpath : Access.sanitize host.disk classPath = .ok path)
    (hdata : host.disk.read path.text = .ok data) :
    (disassembleClass s classPath).exec host =
      ofDisassembly ((s.disassembleText ⟨data, path.stem⟩).exec host) := by
  have hfile : (s.disassembleFile classPath).exec host =
      (s.disassemble ⟨data, path.stem⟩).exec host := by
    rw [s.disassembleFile_exec, hpath]
    simp only
    rw [hdata]
  unfold disassembleClass Service.disassembleText
  rw [Run.exec_bind_ok (Run.exec_attempt _ host), hfile]
  rcases hexec : (s.disassemble ⟨data, path.stem⟩).exec host with ⟨fault | outcome, after⟩
  · have htold : isTold fault = true ↔ fault = Value.digitsFault :=
      Service.isTold_iff_of_disassemble (by rw [hexec])
    rw [Run.exec_bind_error hexec]
    by_cases hdigits : fault = Value.digitsFault
    · subst hdigits
      rfl
    · have hno := Bool.eq_false_iff.mpr fun h => hdigits (htold.mp h)
      obtain ⟨hcaller, hsystem⟩ := Bool.or_eq_false_iff.mp hno
      simp only [ofDisassembly, hno, hcaller, hsystem, Bool.false_eq_true, if_false]
      exact Run.exec_throw fault after
  · rw [Run.exec_bind_ok hexec]
    rfl

/-- The two functions agree on what a disassembly came to, unless that is a failure about a number of
too many digits. -/
theorem ofDisassembly_eq_iff {ended : Except Fault String × Host}
    (h : ∀ fault, ended.1 = .error fault → (isTold fault = true ↔ fault = Value.digitsFault)) :
    ofDisassembly ended = ended ↔ ended.1 ≠ .error Value.digitsFault := by
  rcases ended with ⟨fault | text, after⟩
  · by_cases hdigits : fault = Value.digitsFault
    · subst hdigits
      exact iff_of_false nofun fun hno => hno rfl
    · have hno := Bool.eq_false_iff.mpr fun htold => hdigits ((h fault rfl).mp htold)
      refine iff_of_true (by simp [ofDisassembly, hno]) fun he => hdigits ?_
      cases he
      rfl
  · exact iff_of_true rfl nofun

/-- **Where the two ways to disassemble a class agree.**  Take any path that is usable, and the bytes
of the file behind it.  From the same host, the function for files at that path and the function for
bytes at the base64 of those bytes, under the stem of the file, come to the same text or the same
failure, and to the same host, unless the latter ends in the failure about a number of too many
digits.  The former then answers with a text about that, and leaves the same host; and the failure
arose because the run of the tool ended in one whose message shows such a number. -/
theorem disassembleClass_eq_disassembleClassBytes (s : Service) (host : Host) (classPath : String)
    (path : Path) (data : Text.Bytes) (hpath : Access.sanitize host.disk classPath = .ok path)
    (hdata : host.disk.read path.text = .ok data) :
    ((disassembleClass s classPath).exec host =
        (disassembleClassBytes s (Text.base64Encode data) path.stem).exec host ↔
      ((disassembleClassBytes s (Text.base64Encode data) path.stem).exec host).1 ≠
        .error Value.digitsFault) ∧
    (((disassembleClassBytes s (Text.base64Encode data) path.stem).exec host).1 =
        .error Value.digitsFault →
      (disassembleClass s classPath).exec host =
        (.ok ("Error: " ++ Value.digitsFault.message),
          ((disassembleClassBytes s (Text.base64Encode data) path.stem).exec host).2)) ∧
    (s.invoker = Invocation.invoke →
      ((disassembleClassBytes s (Text.base64Encode data) path.stem).exec host).1 =
          .error Value.digitsFault →
        ∃ root trouble, s.configuration.toolPath = some root ∧
          s.ending ⟨data, path.stem⟩ root host = .error trouble ∧ trouble.IsOrdinary ∧
          trouble.Untold Value.digitsFault) := by
  rw [disassembleClass_exec hpath hdata]
  unfold disassembleClassBytes
  rw [Text.base64Decode?_base64Encode]
  have hfails : ∀ fault, ((s.disassembleText ⟨data, path.stem⟩).exec host).1 = .error fault →
      ((s.disassemble ⟨data, path.stem⟩).exec host).1 = .error fault := fun fault =>
    s.disassembleText_error_iff.mp
  refine ⟨ofDisassembly_eq_iff fun fault h =>
    Service.isTold_iff_of_disassemble (hfails fault h), fun h => ?_, fun hinvoker h => ?_⟩
  · rcases hexec : (s.disassembleText ⟨data, path.stem⟩).exec host with ⟨fault | text, after⟩
    · rw [hexec] at h
      cases h
      rfl
    · rw [hexec] at h
      cases h
  · have hfault := hfails _ h
    cases hroot : s.configuration.toolPath with
    | none =>
      unfold Service.disassemble at hfault
      rw [hroot] at hfault
      cases hfault
    | some root =>
      obtain ⟨trouble, hending⟩ :=
        (Service.disassemble_ordinary_iff Value.digitsFault_ordinary hroot hinvoker).mp hfault
      exact ⟨root, trouble, rfl, hending⟩

/-- What a step ended in is a failure about a value, without malformed source text, whose message
shows a number of too many digits. -/
def showsLongNumber {α : Type} : Except Fault α → Bool
  | .error fault =>
    fault.kind == .valueError && fault.parts.findSome? Fault.Part.obstacle? == some .digits &&
      fault.history.all fun past => !past.kind.isA .syntaxError
  | .ok _ => false

/-- Such a failure cannot be told. -/
theorem untold_of_showsLongNumber {fault : Fault}
    (h : showsLongNumber (.error fault : Except Fault Unit) = true) :
    fault.kind = .valueError ∧ fault.Untold Value.digitsFault := by
  simp only [showsLongNumber, Bool.and_eq_true, beq_iff_eq, List.all_eq_true,
    Bool.not_eq_eq_eq_not, Bool.not_true] at h
  obtain ⟨⟨hkind, hparts⟩, hhistory⟩ := h
  refine ⟨hkind, .inr ⟨fun _ => Fault.report_ok hhistory, ?_⟩⟩
  have hposition : fault.positionTrouble? = none := by
    unfold Fault.positionTrouble?
    rw [hkind]
  have htrouble : fault.trouble? = some Value.digitsFault := by
    rw [Fault.trouble?, hposition, hparts]
    rfl
  rw [Fault.tell, htrouble]

/-- A class file of two bytes, so that the last group of its base64 is not full, and a tool whose
module raises, while it is loaded, a failure with the first number of more than 4300 digits. -/
theorem disassembleClass_tells_long_number :
    let s : Service := {
      backend := { engine := .module ⟨"javap", "main"⟩ "javap:main", label := "Tool",
                   arguments := [] }
      configuration := { toolPath := some ⟨.root, []⟩, tempDirectory := some ⟨.root, []⟩ } }
    let failure : Fault := { kind := .valueError, args := [.int Json.tooLong] }
    let host : Host := {
      disk := { tree := ⟨[(["javap.py"], .file (.script { onLoad := [.raise failure] }) 0o644),
        (["Foo.class"], .file (.bytes [0xca, 0xfe]) 0o644)]⟩ } }
    ((disassembleClassBytes s "yv4=" "Foo").exec host).1 = .error Value.digitsFault ∧
      ((disassembleClass s "/Foo.class").exec host).1 =
        .ok ("Error: " ++ Value.digitsFault.message) := by
  intro s failure host
  obtain ⟨resource, made, trouble, hmake, hload, hstops⟩ :
      ∃ resource made trouble, s.makeFile ⟨[0xca, 0xfe], "Foo"⟩ host = (.ok resource, made) ∧
        showsLongNumber (.error trouble : Except Fault Unit) = true ∧
        s.backend.LoadingStops ⟨.root, []⟩ (Service.toolStart made) trouble :=
    Service.loadingStops_of_passes rfl (fun _ => rfl) (by decide +kernel)
  obtain ⟨hkind, huntold⟩ := untold_of_showsLongNumber hload
  have hending : s.ending ⟨[0xca, 0xfe], "Foo"⟩ ⟨.root, []⟩ host = .error trouble := by
    unfold Service.ending
    rw [hmake]
    exact Invocation.invoke_of_loadingStops hstops (by rw [Fault.isA, hkind]; decide)
      (by rw [Fault.isA, hkind]; decide) (by rw [hkind]; decide)
  have hordinary : trouble.IsOrdinary := by
    rw [Fault.IsOrdinary, hkind]
    rfl
  have hbytes : ((disassembleClassBytes s "yv4=" "Foo").exec host).1 = .error Value.digitsFault :=
    (disassembleClassBytes_error_iff s "yv4=" "Foo" host _).mpr ⟨[0xca, 0xfe], by decide +kernel,
      (Service.disassemble_ordinary_iff Value.digitsFault_ordinary rfl rfl).mpr
        ⟨trouble, hending, hordinary, huntold⟩⟩
  have hresolve : host.disk.resolve (Path.ofText "/Foo.class") = .ok ⟨.root, ["Foo.class"]⟩ :=
    Files.Disk.resolve_name ⟨by decide, by decide⟩ (by decide +kernel)
      (by decide +kernel) (by decide +kernel)
  have hpath : Access.sanitize host.disk "/Foo.class" = .ok ⟨.root, ["Foo.class"]⟩ := by
    unfold Access.sanitize
    rw [hresolve]
    exact Run.ok_of_toOption (by decide +kernel)
  have hdata : host.disk.read (Path.text ⟨.root, ["Foo.class"]⟩) = .ok [0xca, 0xfe] :=
    Run.ok_of_toOption (by decide +kernel)
  have hstem : Path.stem ⟨.root, ["Foo.class"]⟩ = "Foo" := by decide +kernel
  have hbase64 : Text.base64Encode [0xca, 0xfe] = "yv4=" := by decide +kernel
  have h := disassembleClass_eq_disassembleClassBytes s host "/Foo.class"
    ⟨.root, ["Foo.class"]⟩ [0xca, 0xfe] hpath hdata
  rw [hstem, hbase64] at h
  obtain ⟨-, hclass, -⟩ := h
  exact ⟨hbytes, by rw [hclass hbytes]⟩

end Functions

end Dissect
