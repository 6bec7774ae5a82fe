/-
# Where output goes

At every moment a stream leads to one sink: an outer stream or the buffer of a capture.  Captures
may be begun and finished in any order, more than once, and out of nesting; a finish puts back the
streams that its own capture replaced, be that the buffer of a capture that is over.  Whatever the
order, no output is lost, doubled or moved.

* `held_after`: one move adds what it records to the sink that it names, and touches no other.
* `output_conserved`: after any moves every sink holds what was recorded in it; a write is recorded
  in the current sink or fails because that is the buffer of a capture that is over; and the text of
  a capture that is over stays.
-/
import Dissect.Console

namespace Dissect

/-- The two streams that a program writes to. -/
inductive Stream where
  | out
  | err
deriving DecidableEq, Repr

namespace Console

/-! ## 1. Sinks -/

/-- The sink that a stream leads to at present. -/
def current (c : Console) : Stream → Sink
  | .out => c.out
  | .err => c.err

/-- What a sink holds. -/
def held (c : Console) : Sink → String
  | .stdout => c.stdoutText
  | .stderr => c.stderrText
  | .capture id => (c.captures[id]?).elim "" (·.text)

/-- The sink takes what is written to it. -/
def takes (c : Console) : Sink → Bool
  | .stdout => true
  | .stderr => true
  | .capture id => (c.captures[id]?).any (!·.finished)

/-- The sink is an outer stream or the buffer of a capture that was begun. -/
def Known (c : Console) (sink : Sink) : Prop :=
  ∀ id, sink = .capture id → id < c.captures.length

variable {c later : Console} {sink : Sink} {s : String} {id : Nat}

/-- A write succeeds exactly on a sink that takes it. -/
theorem write_ok_iff : (∃ later, c.write sink s = .ok later) ↔ c.takes sink = true := by
  cases sink with
  | stdout => exact ⟨fun _ => rfl, fun _ => ⟨_, rfl⟩⟩
  | stderr => exact ⟨fun _ => rfl, fun _ => ⟨_, rfl⟩⟩
  | capture id =>
    cases hc : c.captures[id]? with
    | none => simp [write, takes, hc]
    | some capture => cases hf : capture.finished <;> simp [write, takes, hc, hf]

/-- There is one way for a write to fail. -/
theorem write_fails (h : c.takes sink = false) : c.write sink s = .error closedFault := by
  cases sink with
  | stdout => cases h
  | stderr => cases h
  | capture id =>
    cases hc : c.captures[id]? with
    | none => simp [write, hc]
    | some capture =>
      cases hf : capture.finished with
      | true => simp [write, hc, hf]
      | false => simp [takes, hc, hf] at h

/-- What a write does. -/
theorem write_cases (h : c.write sink s = .ok later) :
    (sink = .stdout ∧ later = { c with stdoutText := c.stdoutText ++ s }) ∨
    (sink = .stderr ∧ later = { c with stderrText := c.stderrText ++ s }) ∨
    ∃ id capture, sink = .capture id ∧ c.captures[id]? = some capture ∧
      capture.finished = false ∧
      later =
        { c with captures := c.captures.set id { capture with text := capture.text ++ s } } := by
  cases sink with
  | stdout => exact .inl ⟨rfl, (Except.ok.inj h).symm⟩
  | stderr => exact .inr (.inl ⟨rfl, (Except.ok.inj h).symm⟩)
  | capture id =>
    cases hc : c.captures[id]? with
    | none => simp [write, hc] at h
    | some capture =>
      cases hf : capture.finished with
      | true => simp [write, hc, hf] at h
      | false =>
        simp only [write, hc] at h
        rw [if_neg (by simp [hf])] at h
        exact .inr (.inr ⟨id, capture, rfl, hc, hf, (Except.ok.inj h).symm⟩)

/-- What a finish does. -/
theorem finish_cases (c : Console) (id : Nat) :
    c.finish id = c ∨
    ∃ capture, c.captures[id]? = some capture ∧ capture.finished = false ∧
      c.finish id =
        { c with
          out := capture.previousOut, err := capture.previousErr,
          captures := c.captures.set id { capture with finished := true } } := by
  cases hc : c.captures[id]? with
  | none => exact .inl (by simp [finish, hc])
  | some capture =>
    cases hf : capture.finished with
    | true => exact .inl (by simp [finish, hc, hf])
    | false => exact .inr ⟨capture, rfl, hf, by simp [finish, hc, hf]⟩

/-- What the sinks hold when a capture is renewed. -/
theorem held_renewed {capture renewed : Capture} (hc : c.captures[id]? = some capture)
    (out err : Sink) (k : Sink) :
    held { c with out, err, captures := c.captures.set id renewed } k =
      if k = .capture id then renewed.text else c.held k := by
  cases k with
  | stdout => rfl
  | stderr => rfl
  | capture j =>
    by_cases hj : j = id
    · subst hj
      have hlt : j < c.captures.length := (List.getElem?_eq_some_iff.mp hc).1
      simp [held, hlt]
    · simp [held, hj, List.getElem?_set_ne (Ne.symm hj)]

/-- **A write is added at the end of its sink**, and changes no other. -/
theorem held_write (h : c.write sink s = .ok later) (k : Sink) :
    later.held k = if k = sink then c.held k ++ s else c.held k := by
  rcases write_cases h with ⟨rfl, rfl⟩ | ⟨rfl, rfl⟩ | ⟨id, capture, rfl, hc, -, rfl⟩
  · cases k <;> simp [held]
  · cases k <;> simp [held]
  · rw [held_renewed hc]
    by_cases hk : k = .capture id
    · simp [hk, held, hc]
    · simp [hk]

theorem held_begin (c : Console) (k : Sink) : c.begin.2.held k = c.held k := by
  cases k with
  | stdout => rfl
  | stderr => rfl
  | capture j =>
    show ((c.captures ++ [{ previousOut := c.out, previousErr := c.err }])[j]?).elim "" (·.text) =
      (c.captures[j]?).elim "" (·.text)
    by_cases hlt : j < c.captures.length
    · rw [List.getElem?_append_left hlt]
    · rw [List.getElem?_append_right (Nat.not_lt.mp hlt), List.getElem?_eq_none (Nat.not_lt.mp hlt)]
      cases j - c.captures.length <;> rfl

theorem held_finish (c : Console) (id : Nat) (k : Sink) : (c.finish id).held k = c.held k := by
  rcases finish_cases c id with h | ⟨capture, hc, -, h⟩
  · rw [h]
  · rw [h, held_renewed hc]
    split
    · rename_i hk
      simp [hk, held, hc]
    · rfl

/-! ## 2. Moves -/

/-- What can be done to the console. -/
inductive Move where
  | begin
  | finish (id : Nat)
  | write (stream : Stream) (s : String)
deriving DecidableEq, Repr

/-- The console after a move.  A write that fails leaves it as it is. -/
def after (c : Console) : Move → Console
  | .begin => c.begin.2
  | .finish id => c.finish id
  | .write stream s =>
    match c.write (c.current stream) s with
    | .ok later => later
    | .error _ => c

/-- The console after some moves. -/
def afterAll (c : Console) (moves : List Move) : Console := moves.foldl after c

/-- What was written, in order, each piece with its sink. -/
abbrev Record := List (Sink × String)

/-- What a move records: a write that succeeds, in the sink that its stream leads to. -/
def recorded (c : Console) : Move → Record
  | .begin => []
  | .finish _ => []
  | .write stream s => if c.takes (c.current stream) then [(c.current stream, s)] else []

/-- What some moves record. -/
def record : Console → List Move → Record
  | _, [] => []
  | c, move :: rest => c.recorded move ++ record (c.after move) rest

/-- The pieces recorded in one sink, put together. -/
def Record.textIn (record : Record) (sink : Sink) : String :=
  String.join ((record.filter (·.1 == sink)).map (·.2))

theorem Record.textIn_append (record later : Record) (sink : Sink) :
    textIn (record ++ later) sink = textIn record sink ++ textIn later sink := by
  simp only [textIn, List.filter_append, List.map_append, String.join_append]

theorem Record.textIn_single (sink : Sink) (s : String) (k : Sink) :
    textIn [(sink, s)] k = if sink = k then s else "" := by
  by_cases hk : sink = k
  · simp [textIn, hk]
  · simp [textIn, hk]

theorem afterAll_append (c : Console) (moves more : List Move) :
    c.afterAll (moves ++ more) = (c.afterAll moves).afterAll more := List.foldl_append

theorem record_append (c : Console) (moves more : List Move) :
    c.record (moves ++ more) = c.record moves ++ (c.afterAll moves).record more := by
  induction moves generalizing c with
  | nil => rfl
  | cons move rest ih =>
    simp only [List.cons_append, record, ih, List.append_assoc]
    rfl

theorem after_write {stream : Stream} (h : c.write (c.current stream) s = .ok later) :
    c.after (.write stream s) = later := by
  simp only [after, h]

theorem after_write_fails {stream : Stream} (h : c.takes (c.current stream) = false) (s : String) :
    c.after (.write stream s) = c := by
  simp only [after, write_fails h]

/-- **One move adds what it records**, and nothing else. -/
theorem held_after (c : Console) (move : Move) (k : Sink) :
    (c.after move).held k = c.held k ++ Record.textIn (c.recorded move) k := by
  cases move with
  | begin => exact (held_begin c k).trans (by simp [recorded, Record.textIn])
  | finish id => exact (held_finish c id k).trans (by simp [recorded, Record.textIn])
  | write stream s =>
    cases ht : c.takes (c.current stream) with
    | false => simp [after_write_fails ht, recorded, ht, Record.textIn]
    | true =>
      obtain ⟨later, hlater⟩ := write_ok_iff.mpr ht
      rw [after_write hlater, held_write hlater]
      simp only [recorded, ht, if_true, Record.textIn_single]
      by_cases hk : k = c.current stream
      · simp [hk]
      · simp [hk, Ne.symm hk]

/-- Moves add what they record. -/
theorem held_afterAll (c : Console) (moves : List Move) (k : Sink) :
    (c.afterAll moves).held k = c.held k ++ Record.textIn (c.record moves) k := by
  induction moves generalizing c with
  | nil => simp [afterAll, record, Record.textIn]
  | cons move rest ih =>
    have hrest : (c.afterAll (move :: rest)).held k =
        (c.after move).held k ++ Record.textIn ((c.after move).record rest) k := ih (c.after move)
    rw [hrest, held_after, record, Record.textIn_append, String.append_assoc]

/-! ## 3. Captures that are over -/

theorem isFinished_iff : c.isFinished id = true ↔
    ∃ capture, c.captures[id]? = some capture ∧ capture.finished = true := by
  unfold isFinished
  cases c.captures[id]? <;> simp

/-- What a capture gives once it is over is what is in its buffer. -/
theorem textOf_of_finished (h : c.isFinished id = true) : c.textOf id = c.held (.capture id) := by
  obtain ⟨capture, hc, hf⟩ := isFinished_iff.mp h
  simp [textOf, held, hc, hf]

/-- Finishing a capture again changes nothing. -/
theorem finish_of_finished (h : c.isFinished id = true) : c.finish id = c := by
  obtain ⟨capture, hc, hf⟩ := isFinished_iff.mp h
  simp [finish, hc, hf]

/-- A capture that was begun is over once it is finished. -/
theorem isFinished_finish (h : id < c.captures.length) : (c.finish id).isFinished id = true := by
  have hc : c.captures[id]? = some c.captures[id] := List.getElem?_eq_getElem h
  cases hf : c.captures[id].finished with
  | true => simp [finish, isFinished, hf, h]
  | false => simp [finish, isFinished, hf, h]

/-- A move leaves a capture that is over as it is. -/
theorem getElem?_after {capture : Capture} (hc : c.captures[id]? = some capture)
    (hf : capture.finished = true) (move : Move) :
    (c.after move).captures[id]? = some capture := by
  have hlt : id < c.captures.length := (List.getElem?_eq_some_iff.mp hc).1
  -- a capture that is renewed is not over
  have hset : ∀ {j : Nat} {old new : Capture}, c.captures[j]? = some old → old.finished = false →
      (c.captures.set j new)[id]? = some capture := by
    intro j old new hold hopen
    have hj : j ≠ id := by
      rintro rfl
      rw [Option.some.inj (hold.symm.trans hc), hf] at hopen
      cases hopen
    rw [List.getElem?_set_ne hj, hc]
  cases move with
  | begin => exact (List.getElem?_append_left hlt).trans hc
  | finish j =>
    rcases finish_cases c j with h | ⟨old, hold, hopen, h⟩
    · rw [after, h, hc]
    · rw [after, h]
      exact hset hold hopen
  | write stream s =>
    cases ht : c.takes (c.current stream) with
    | false => rw [after_write_fails ht, hc]
    | true =>
      obtain ⟨later, hlater⟩ := write_ok_iff.mpr ht
      rw [after_write hlater]
      rcases write_cases hlater with ⟨-, rfl⟩ | ⟨-, rfl⟩ | ⟨j, old, -, hold, hopen, rfl⟩
      · exact hc
      · exact hc
      · exact hset hold hopen

/-- **A capture that is over stays as it is**, whatever happens. -/
theorem getElem?_afterAll {capture : Capture} (hc : c.captures[id]? = some capture)
    (hf : capture.finished = true) (moves : List Move) :
    (c.afterAll moves).captures[id]? = some capture := by
  induction moves generalizing c with
  | nil => exact hc
  | cons move rest ih => exact ih (getElem?_after hc hf move)

theorem textOf_afterAll (h : c.isFinished id = true) (moves : List Move) :
    (c.afterAll moves).isFinished id = true ∧ (c.afterAll moves).textOf id = c.textOf id := by
  obtain ⟨capture, hc, hf⟩ := isFinished_iff.mp h
  have hlater := getElem?_afterAll hc hf moves
  exact ⟨isFinished_iff.mpr ⟨capture, hlater, hf⟩, by simp [textOf, hlater, hc]⟩

/-! ## 4. Streams lead to sinks that exist -/

/-- Both streams lead to known sinks, and so do those that captures put back. -/
structure Sound (c : Console) : Prop where
  current : ∀ stream, c.Known (c.current stream)
  previous : ∀ capture ∈ c.captures, c.Known capture.previousOut ∧ c.Known capture.previousErr

theorem Known.mono (h : c.Known sink) (hl : c.captures.length ≤ later.captures.length) :
    later.Known sink := fun id he => Nat.lt_of_lt_of_le (h id he) hl

/-- A capture may be renewed as long as it puts back the same streams. -/
theorem Sound.renewed (h : c.Sound) {capture renewed : Capture}
    (hc : c.captures[id]? = some capture) (hout : renewed.previousOut = capture.previousOut)
    (herr : renewed.previousErr = capture.previousErr) {out err : Sink} (ho : c.Known out)
    (he : c.Known err) : Sound { c with out, err, captures := c.captures.set id renewed } := by
  have hl : c.captures.length ≤ (c.captures.set id renewed).length := by simp
  refine ⟨fun stream => ?_, fun member hm => ?_⟩
  · cases stream with
    | out => exact ho.mono hl
    | err => exact he.mono hl
  · have hold : ∃ old ∈ c.captures,
        member.previousOut = old.previousOut ∧ member.previousErr = old.previousErr := by
      rcases List.mem_or_eq_of_mem_set hm with hold | rfl
      · exact ⟨member, hold, rfl, rfl⟩
      · exact ⟨capture, List.mem_of_getElem? hc, hout, herr⟩
    obtain ⟨old, hmem, hpo, hpe⟩ := hold
    rw [hpo, hpe]
    exact ⟨(h.previous old hmem).1.mono hl, (h.previous old hmem).2.mono hl⟩

theorem Sound.after (h : c.Sound) (move : Move) : (c.after move).Sound := by
  cases move with
  | begin =>
    have hl : c.captures.length ≤ c.begin.2.captures.length := by simp [Console.begin]
    refine ⟨fun stream id he => ?_, fun capture hmem => ?_⟩
    · have hid : id = c.captures.length := by
        cases stream <;> exact (Sink.capture.inj he).symm
      simp [Console.after, Console.begin, hid]
    · rcases List.mem_append.mp hmem with hold | hnew
      · exact ⟨(h.previous capture hold).1.mono hl, (h.previous capture hold).2.mono hl⟩
      · rw [List.mem_singleton.mp hnew]
        exact ⟨(h.current .out).mono hl, (h.current .err).mono hl⟩
  | finish id =>
    rcases finish_cases c id with hsame | ⟨capture, hc, -, hsame⟩
    · rw [Console.after, hsame]
      exact h
    · rw [Console.after, hsame]
      obtain ⟨hout, herr⟩ := h.previous capture (List.mem_of_getElem? hc)
      refine h.renewed hc ?_ ?_ hout herr <;> rfl
  | write stream s =>
    cases ht : c.takes (c.current stream) with
    | false =>
      rw [after_write_fails ht]
      exact h
    | true =>
      obtain ⟨later, hlater⟩ := write_ok_iff.mpr ht
      rw [after_write hlater]
      rcases write_cases hlater with ⟨-, rfl⟩ | ⟨-, rfl⟩ | ⟨id, capture, -, hc, -, rfl⟩
      · exact ⟨h.current, h.previous⟩
      · exact ⟨h.current, h.previous⟩
      · refine h.renewed hc ?_ ?_ (h.current .out) (h.current .err) <;> rfl

theorem Sound.afterAll (h : c.Sound) (moves : List Move) : (c.afterAll moves).Sound := by
  induction moves generalizing c with
  | nil => exact h
  | cons move rest ih => exact ih (h.after move)

/-- The console of a process that captures nothing. -/
def outer (stdoutText stderrText : String) : Console := { stdoutText, stderrText }

theorem sound_outer (stdoutText stderrText : String) : (outer stdoutText stderrText).Sound := by
  refine ⟨fun stream id he => ?_, fun capture hmem => by cases hmem⟩
  cases stream <;> cases he

/-- A stream leads to a sink that takes what is written, or to the buffer of a capture that is
over. -/
theorem Sound.finished_of_not_takes (h : c.Sound) {stream : Stream}
    (ht : c.takes (c.current stream) = false) :
    ∃ id, c.current stream = .capture id ∧ c.isFinished id = true := by
  cases hcurrent : c.current stream with
  | stdout =>
    rw [hcurrent] at ht
    cases ht
  | stderr =>
    rw [hcurrent] at ht
    cases ht
  | capture id =>
    have hlt : id < c.captures.length := h.current stream id hcurrent
    rw [hcurrent] at ht
    refine ⟨id, rfl, ?_⟩
    simpa [takes, isFinished, hlt] using ht

/-! ## 5. Conservation -/

/-- **No output is lost, doubled or moved.**  Whatever captures are begun and finished in whatever
order, each sink holds exactly what was recorded in it, in order.  A write succeeds and is recorded
once, in the sink that its stream leads to at that moment, or it fails, changes nothing and is not
recorded, and then its stream leads to the buffer of a capture that is over.  Finishing a capture
gives what was recorded in its buffer; from then on finishing it changes nothing, and whatever else
happens it gives that text. -/
theorem output_conserved (stdoutText stderrText : String) (moves : List Move) :
    let start := outer stdoutText stderrText
    let c := start.afterAll moves
    let record := start.record moves
    (c.stdoutText = stdoutText ++ record.textIn .stdout ∧
      c.stderrText = stderrText ++ record.textIn .stderr ∧
      ∀ id, c.held (.capture id) = record.textIn (.capture id)) ∧
    (∀ stream s,
      ((∃ later, c.write (c.current stream) s = .ok later) ∧
        start.record (moves ++ [.write stream s]) = record ++ [(c.current stream, s)]) ∨
      ((∃ id, c.current stream = .capture id ∧ c.isFinished id = true) ∧
        c.write (c.current stream) s = .error closedFault ∧
        start.afterAll (moves ++ [.write stream s]) = c ∧
        start.record (moves ++ [.write stream s]) = record)) ∧
    (∀ id, id < c.captures.length →
      (c.finish id).isFinished id = true ∧
        (c.finish id).textOf id = record.textIn (.capture id)) ∧
    (∀ id more, c.isFinished id = true →
      let later := c.afterAll more
      later.finish id = later ∧ later.isFinished id = true ∧
        later.textOf id = record.textIn (.capture id)) := by
  intro start c record
  have hheld : ∀ k, c.held k = start.held k ++ record.textIn k := held_afterAll start moves
  have hbuffer : ∀ id, c.held (.capture id) = record.textIn (.capture id) := fun id => by
    rw [hheld]
    exact String.empty_append
  have hsound : c.Sound := (sound_outer stdoutText stderrText).afterAll moves
  have hone : ∀ move, start.record (moves ++ [move]) = record ++ c.recorded move := fun move => by
    rw [record_append]
    simp [Console.record, record, c]
  refine ⟨⟨hheld .stdout, hheld .stderr, hbuffer⟩, fun stream s => ?_, fun id hid => ?_,
    fun id more hf => ?_⟩
  · cases ht : c.takes (c.current stream) with
    | true =>
      refine .inl ⟨write_ok_iff.mpr ht, ?_⟩
      simp [hone, recorded, ht]
    | false =>
      refine .inr ⟨hsound.finished_of_not_takes ht, write_fails ht, ?_, ?_⟩
      · rw [afterAll_append]
        exact after_write_fails ht s
      · simp [hone, recorded, ht]
  · have hf := isFinished_finish hid
    exact ⟨hf, by rw [textOf_of_finished hf, held_finish, hbuffer]⟩
  · intro later
    obtain ⟨hfinished, htext⟩ := textOf_afterAll hf more
    exact ⟨finish_of_finished hfinished, hfinished,
      by rw [htext, textOf_of_finished hf, hbuffer]⟩

/-- Two captures finished in the wrong order: the second finish puts back the buffer of the first,
which takes nothing. -/
example :
    let c := (outer "" "").afterAll
      [.begin, .write .out "a", .begin, .write .err "b", .finish 0, .finish 1, .write .out "c"]
    (c.textOf 0, c.textOf 1, c.current .out, c.stdoutText) = ("a", "b", .capture 0, "") := by
  decide +kernel

end Console

end Dissect
