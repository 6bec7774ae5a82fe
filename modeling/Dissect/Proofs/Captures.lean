/-
# What a capture gives

While a capture is on, both streams lead into its buffer, and what is written is added at the end of
it (`Console.Records`).  So what the capture gives when it is finished is all that was written, in
the order in which it was written and whichever of the two streams it was written to.
-/
import Dissect.Proofs.Steps
import Dissect.Tool.Import

namespace Dissect

/-! ## 1. The buffer -/

namespace Console

/-- Both streams lead into a capture that is not over, and whose buffer holds a text. -/
structure Records (c : Console) (id : Nat) (text : String) : Prop where
  out : c.out = .capture id
  err : c.err = .capture id
  buffer : ∃ capture, c.captures[id]? = some capture ∧ capture.finished = false ∧
    capture.text = text

variable {c : Console} {id : Nat} {text : String}

/-- A capture begins with nothing in it. -/
theorem records_begin (c : Console) : c.begin.2.Records c.begin.1 "" :=
  ⟨rfl, rfl, { previousOut := c.out, previousErr := c.err }, by simp [begin], rfl, rfl⟩

/-- What is written to the capture is added at the end. -/
theorem Records.write (h : c.Records id text) (s : String) :
    ∃ after, c.write (.capture id) s = .ok after ∧ after.Records id (text ++ s) := by
  obtain ⟨capture, hc, hopen, htext⟩ := h.buffer
  have hid : id < c.captures.length := (List.getElem?_eq_some_iff.mp hc).1
  let longer : Capture := { capture with text := capture.text ++ s }
  refine ⟨{ c with captures := c.captures.set id longer }, ?_, h.out, h.err, longer,
    List.getElem?_set_self hid, hopen, congrArg (· ++ s) htext⟩
  unfold Console.write
  simp only [hc]
  exact if_neg (Bool.eq_false_iff.mp hopen)

theorem Records.writeOut (h : c.Records id text) (s : String) :
    ∃ after, c.writeOut s = .ok after ∧ after.Records id (text ++ s) := by
  unfold Console.writeOut
  rw [h.out]
  exact h.write s

theorem Records.writeErr (h : c.Records id text) (s : String) :
    ∃ after, c.writeErr s = .ok after ∧ after.Records id (text ++ s) := by
  unfold Console.writeErr
  rw [h.err]
  exact h.write s

/-- **A finished capture gives what is in the buffer.** -/
theorem Records.textOf_finish (h : c.Records id text) : (c.finish id).textOf id = text := by
  obtain ⟨capture, hc, hopen, htext⟩ := h.buffer
  have hid : id < c.captures.length := (List.getElem?_eq_some_iff.mp hc).1
  simp [finish, textOf, hc, hopen, htext, List.getElem?_set_self hid]

end Console

/-! ## 2. Writing steps -/

section

variable {host : Host} {id : Nat} {text : String}

theorem Import.print_records (h : host.console.Records id text) (s : String) :
    ∃ console, (Import.print s).exec host = (.ok (), { host with console }) ∧
      console.Records id (text ++ s) := by
  obtain ⟨console, hwrite, hrecords⟩ := h.writeOut s
  refine ⟨console, ?_, hrecords⟩
  unfold Import.print
  rw [Run.exec_bind_ok (Run.exec_get host), hwrite]
  rfl

theorem Import.complain_records (h : host.console.Records id text) (s : String) :
    ∃ console, (Import.complain s).exec host = (.ok (), { host with console }) ∧
      console.Records id (text ++ s) := by
  obtain ⟨console, hwrite, hrecords⟩ := h.writeErr s
  refine ⟨console, ?_, hrecords⟩
  unfold Import.complain
  rw [Run.exec_bind_ok (Run.exec_get host), hwrite]
  rfl

/-- What a child wrote to a stream is passed on, unless it is nothing. -/
theorem Command.forward_records (host : Host) {write : Console → String → Except Fault Console}
    (hwrite : ∀ s, ∃ console, write host.console s = .ok console ∧ console.Records id (text ++ s))
    (h : host.console.Records id text) (s : String) :
    ∃ console, (Command.forward write s).exec host = (.ok (), { host with console }) ∧
      console.Records id (text ++ s) := by
  unfold Command.forward
  by_cases hs : s = ""
  · subst hs
    exact ⟨host.console, rfl, by simpa using h⟩
  · obtain ⟨console, hc, hrecords⟩ := hwrite s
    refine ⟨console, ?_, hrecords⟩
    rw [if_neg hs, Run.exec_bind_ok (Run.exec_get host), hc]
    rfl

end

end Dissect
