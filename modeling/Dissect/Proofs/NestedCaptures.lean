/-
# Nested captures

Work that captures in scopes: a capture is begun with its scope and finished at the end of it, or
directly in it before that, and a failure leaves all the scopes around it.  Then every scope is left
with the streams that it was entered with, and its capture has what was written while it was the
innermost one that was on (`captures_nest`).

What is written where is told without a console: `Work.share` says of work what its own capture gets
and what is passed on to the streams around it.  A scope whose capture is over before its end passes
on what is written in it after that, so the capture around it gets that as well
(`late_text_goes_to_capture_around`).
-/
import Dissect.Proofs.Sinks

namespace Dissect

open Console (Record outer)

/-! ## 1. Work in scopes -/

/-- Work that writes and captures: at the end nothing is left to do, or a failure is raised.  The
capture of a scope may be finished directly in it before its end. -/
inductive Work where
  | done
  | write (stream : Stream) (s : String) (next : Work)
  | finish (next : Work)
  | scope (body next : Work)
  | raise (fault : Fault)

namespace Work

/-- Does the work, directly in the scope of the given capture, if in any. -/
def run : Work → Option Nat → Console → Except Fault Unit × Console
  | .done, _, c => (.ok (), c)
  | .write stream s next, own, c =>
    match c.write (c.current stream) s with
    | .ok later => next.run own later
    | .error fault => (.error fault, c)
  | .finish next, own, c => next.run own (own.elim c c.finish)
  | .scope body next, own, c =>
    match c.capturing fun id => body.run (some id) with
    | (.ok (), later) => next.run own later
    | (.error fault, later) => (.error fault, later)
  | .raise fault, _, c => (.error fault, c)

/-- The scopes that the work enters, at any depth: the console at the entry, and what is done in the
scope. -/
def entries : Work → Option Nat → Console → List (Console × Work)
  | .done, _, _ => []
  | .write stream s next, own, c =>
    match c.write (c.current stream) s with
    | .ok later => next.entries own later
    | .error _ => []
  | .finish next, own, c => next.entries own (own.elim c c.finish)
  | .scope body next, own, c =>
    (c, body) :: (body.entries (some c.begin.1) c.begin.2 ++
      match c.capturing fun id => body.run (some id) with
      | (.ok (), later) => next.entries own later
      | (.error _, _) => [])
  | .raise _, _, _ => []

/-- What work comes to: the texts that its own capture gets, what is passed on to the streams
around it, whether its own capture is still on at the end, and how it ends. -/
structure Share where
  own : List String := []
  around : List (Stream × String) := []
  on : Bool
  ending : Except Fault Unit

/-- More written before: to the own capture while that is on, and to the streams around it
otherwise. -/
def Share.before (on : Bool) (writes : List (Stream × String)) (share : Share) : Share :=
  if on then { share with own := writes.map (·.2) ++ share.own }
  else { share with around := writes ++ share.around }

/-- What the work comes to if its own capture is on, or if it is over or there is none. -/
def share : Work → Bool → Share
  | .done, on => { on, ending := .ok () }
  | .write stream s next, on => (next.share on).before on [(stream, s)]
  | .finish next, _ => next.share false
  | .scope body next, on =>
    match (body.share true).ending with
    | .ok () => (next.share on).before on (body.share true).around
    | .error fault => Share.before on (body.share true).around { on, ending := .error fault }
  | .raise fault, on => { on, ending := .error fault }

/-- The texts of some writes to one stream, put together. -/
def textTo (stream : Stream) (writes : List (Stream × String)) : String :=
  String.join ((writes.filter (·.1 == stream)).map (·.2))

/-- The writes as a record, given where the streams lead. -/
def delivered (leads : Stream → Sink) (writes : List (Stream × String)) : Record :=
  writes.map fun write => (leads write.1, write.2)

/-- What work comes to as a record. -/
def Share.record (share : Share) (own : Option Nat) (around : Stream → Sink) : Record :=
  (own.elim [] fun id => share.own.map fun s => (Sink.capture id, s)) ++
    delivered around share.around

/-- Work whose own capture is not on writes nothing to it. -/
theorem own_share_off : ∀ work : Work, (work.share false).own = []
  | .done => rfl
  | .write _ _ next => own_share_off next
  | .finish next => own_share_off next
  | .raise _ => rfl
  | .scope body next => by
    unfold share
    split
    · exact own_share_off next
    · rfl

/-- What is written before comes first, in the sinks that the streams lead to. -/
theorem textIn_before {on : Bool} {own : Option Nat} {around leads : Stream → Sink}
    (hon : on = true → ∃ id, own = some id ∧ ∀ stream, leads stream = .capture id)
    (hoff : on = false → ∀ stream, leads stream = around stream)
    (writes : List (Stream × String)) {share : Share} (hshare : on = false → share.own = [])
    (k : Sink) :
    ((share.before on writes).record own around).textIn k =
      (delivered leads writes).textIn k ++ (share.record own around).textIn k := by
  cases on with
  | true =>
    obtain ⟨id, rfl, hleads⟩ := hon rfl
    have hwrites : (writes.map (·.2)).map (fun s => (Sink.capture id, s)) =
        delivered leads writes := by
      rw [List.map_map]
      exact List.map_congr_left fun write _ => by simp [hleads]
    simp only [Share.before, Share.record, if_true, Option.elim_some, List.map_append, hwrites,
      Record.textIn_append, String.append_assoc]
  | false =>
    obtain rfl : leads = around := funext (hoff rfl)
    have hnone : (own.elim [] fun id => share.own.map fun s => (Sink.capture id, s)) = [] := by
      cases own <;> simp [hshare rfl]
    simp only [Share.before, Share.record, Bool.false_eq_true, if_false, hnone, List.nil_append,
      delivered, List.map_append, Record.textIn_append]

end Work

/-- The sink that a capture puts back for a stream. -/
def Capture.previous (capture : Capture) : Stream → Sink
  | .out => capture.previousOut
  | .err => capture.previousErr

namespace Work

variable {own : Option Nat} {around : Stream → Sink} {on : Bool} {c later last : Console}

/-! ## 2. Where work stands -/

/-- Work stands in a scope whose own capture is on, so that both streams lead into it, or over, so
that they lead where they led around the scope.  What is around takes what is written to it. -/
structure Stands (own : Option Nat) (around : Stream → Sink) (on : Bool) (c : Console) : Prop where
  takes : ∀ stream, c.takes (around stream) = true
  apart : ∀ stream id, own = some id → around stream ≠ .capture id
  inside : on = true → ∃ id capture, own = some id ∧ c.captures[id]? = some capture ∧
    capture.finished = false ∧
    ∀ stream, c.current stream = .capture id ∧ capture.previous stream = around stream
  beside : on = false → (∀ stream, c.current stream = around stream) ∧
    ∀ id, own = some id → c.isFinished id = true

/-- The captures of the first console, all but one, are on or over as they were, and will put back
the same streams. -/
structure Others (own : Option Nat) (c later : Console) : Prop where
  length : c.captures.length ≤ later.captures.length
  same : ∀ id capture, own ≠ some id → c.captures[id]? = some capture →
    ∃ renewed, later.captures[id]? = some renewed ∧ renewed.finished = capture.finished ∧
      ∀ stream, renewed.previous stream = capture.previous stream

namespace Others

theorem refl (own : Option Nat) (c : Console) : Others own c c :=
  ⟨Nat.le_refl _, fun _ capture _ hc => ⟨capture, hc, rfl, fun _ => rfl⟩⟩

theorem trans (h : Others own c later) (h' : Others own later last) : Others own c last where
  length := Nat.le_trans h.length h'.length
  same := by
    intro id capture hne hc
    obtain ⟨renewed, hr, hf, hp⟩ := h.same id capture hne hc
    obtain ⟨again, ha, hf', hp'⟩ := h'.same id renewed hne hr
    exact ⟨again, ha, hf'.trans hf, fun stream => (hp' stream).trans (hp stream)⟩

/-- What is known of all captures is known of all but one. -/
theorem weaken (h : Others none c later) (own : Option Nat) : Others own c later :=
  ⟨h.length, fun id capture _ hc => h.same id capture (by simp) hc⟩

/-- Nothing but the text of a capture is changed by a write. -/
theorem write {sink : Sink} {s : String} (h : c.write sink s = .ok later) :
    Others none c later := by
  rcases Console.write_cases h with ⟨-, rfl⟩ | ⟨-, rfl⟩ | ⟨j, old, -, hold, -, rfl⟩
  · exact ⟨Nat.le_refl _, fun _ capture _ hc => ⟨capture, hc, rfl, fun _ => rfl⟩⟩
  · exact ⟨Nat.le_refl _, fun _ capture _ hc => ⟨capture, hc, rfl, fun _ => rfl⟩⟩
  · refine ⟨by simp, fun id capture _ hc => ?_⟩
    by_cases hj : id = j
    · subst hj
      obtain rfl : old = capture := Option.some.inj (hold.symm.trans hc)
      have hlt : id < c.captures.length := (List.getElem?_eq_some_iff.mp hc).1
      exact ⟨{ old with text := old.text ++ s }, by simp [hlt], rfl,
        fun stream => by cases stream <;> rfl⟩
    · exact ⟨capture, by rw [List.getElem?_set_ne (Ne.symm hj), hc], rfl, fun _ => rfl⟩

theorem begin (c : Console) : Others none c c.begin.2 := by
  refine ⟨by simp [Console.begin], fun id capture _ hc => ⟨capture, ?_, rfl, fun _ => rfl⟩⟩
  have hlt : id < c.captures.length := (List.getElem?_eq_some_iff.mp hc).1
  exact (List.getElem?_append_left hlt).trans hc

theorem finish (c : Console) (id : Nat) : Others (some id) c (c.finish id) := by
  rcases Console.finish_cases c id with hsame | ⟨old, -, -, hsame⟩
  · rw [hsame]
    exact refl _ c
  · rw [hsame]
    refine ⟨by simp, fun j capture hne hc => ⟨capture, ?_, rfl, fun _ => rfl⟩⟩
    have hj : id ≠ j := fun he => hne (by rw [he])
    exact (List.getElem?_set_ne hj).trans hc

/-- A sink that took what is written still does, if it is not the buffer of the one capture. -/
theorem takes (h : Others own c later) {sink : Sink} (ht : c.takes sink = true)
    (hne : ∀ id, own = some id → sink ≠ .capture id) : later.takes sink = true := by
  cases sink with
  | stdout => rfl
  | stderr => rfl
  | capture id =>
    cases hc : c.captures[id]? with
    | none => simp [Console.takes, hc] at ht
    | some capture =>
      obtain ⟨renewed, hr, hf, -⟩ := h.same id capture (fun he => hne id he rfl) hc
      simpa [Console.takes, hc, hr, hf] using ht

theorem isFinished (h : Others own c later) {id : Nat} (hne : own ≠ some id)
    (hf : c.isFinished id = true) : later.isFinished id = true := by
  obtain ⟨capture, hc, hfinished⟩ := Console.isFinished_iff.mp hf
  obtain ⟨renewed, hr, hsame, -⟩ := h.same id capture hne hc
  exact Console.isFinished_iff.mpr ⟨renewed, hr, hsame.trans hfinished⟩

end Others

namespace Stands

/-- Wherever work stands, its streams take what is written to them. -/
theorem takes_current (h : Stands own around on c) (stream : Stream) :
    c.takes (c.current stream) = true := by
  cases on with
  | true =>
    obtain ⟨id, capture, -, hc, hopen, hstreams⟩ := h.inside rfl
    simp [(hstreams stream).1, Console.takes, hc, hopen]
  | false =>
    rw [(h.beside rfl).1 stream]
    exact h.takes stream

/-- Work stands where it stood when the streams lead where they led and the captures have not
changed. -/
theorem of_others (h : Stands own around on c) (ho : Others none c later)
    (hs : ∀ stream, later.current stream = c.current stream) : Stands own around on later where
  takes := fun stream => ho.takes (h.takes stream) fun id he => by cases he
  apart := h.apart
  inside := fun hon => by
    obtain ⟨id, capture, hown, hc, hopen, hstreams⟩ := h.inside hon
    obtain ⟨renewed, hr, hf, hp⟩ := ho.same id capture (by simp) hc
    refine ⟨id, renewed, hown, hr, hf.trans hopen, fun stream => ?_⟩
    rw [hs, hp]
    exact hstreams stream
  beside := fun hoff =>
    ⟨fun stream => (hs stream).trans ((h.beside hoff).1 stream),
      fun id hown => ho.isFinished (by simp) ((h.beside hoff).2 id hown)⟩

/-- A write moves nothing. -/
theorem write (h : Stands own around on c) (hk : c.Sound) {stream : Stream} {s : String}
    (hw : c.write (c.current stream) s = .ok later) : later.Sound ∧ Stands own around on later := by
  have hafter := hk.after (.write stream s)
  rw [Console.after_write hw] at hafter
  refine ⟨hafter, h.of_others (Others.write hw) fun stream => ?_⟩
  rcases Console.write_cases hw with ⟨-, rfl⟩ | ⟨-, rfl⟩ | ⟨_, _, -, -, -, rfl⟩ <;>
    cases stream <;> rfl

/-- In a new capture work stands inside, around it being the streams that were replaced. -/
theorem begin (h : ∀ stream, c.takes (c.current stream) = true) (hk : c.Sound) :
    Stands (some c.begin.1) c.current true c.begin.2 where
  takes := fun stream => (Others.begin c).takes (h stream) fun id he => by cases he
  apart := fun stream id hid he => by
    have hlt := hk.current stream id he
    rw [← Option.some.inj hid] at hlt
    exact absurd hlt (Nat.lt_irrefl _)
  inside := fun _ =>
    ⟨c.captures.length, { previousOut := c.out, previousErr := c.err }, rfl,
      by simp [Console.begin], rfl, fun stream => by cases stream <;> exact ⟨rfl, rfl⟩⟩
  beside := fun hoff => by cases hoff

/-- Once the own capture is finished work stands beside it. -/
theorem finish (h : Stands own around on c) :
    Stands own around false (own.elim c c.finish) := by
  cases hown : own with
  | none =>
    subst hown
    cases on with
    | true =>
      obtain ⟨id, capture, hnone, -⟩ := h.inside rfl
      cases hnone
    | false => exact h
  | some id =>
    subst hown
    show Stands (some id) around false (c.finish id)
    have ho := Others.finish c id
    have hcurrent : (∀ stream, (c.finish id).current stream = around stream) ∧
        (c.finish id).isFinished id = true := by
      cases on with
      | true =>
        obtain ⟨j, capture, hj, hc, hopen, hstreams⟩ := h.inside rfl
        obtain rfl := Option.some.inj hj
        have hlt : id < c.captures.length := (List.getElem?_eq_some_iff.mp hc).1
        refine ⟨fun stream => ?_, Console.isFinished_finish hlt⟩
        rw [← (hstreams stream).2]
        cases stream <;> simp [Console.finish, Console.current, Capture.previous, hc, hopen]
      | false =>
        have hf := (h.beside rfl).2 id rfl
        rw [Console.finish_of_finished hf]
        exact ⟨(h.beside rfl).1, hf⟩
    exact ⟨fun stream => ho.takes (h.takes stream) fun j hj => h.apart stream j hj, h.apart,
      fun hon => (by cases hon), fun _ => ⟨hcurrent.1, fun j hj => by
        rw [← Option.some.inj hj]
        exact hcurrent.2⟩⟩

end Stands

/-! ## 3. What work comes to -/

/-- The work comes to its share. -/
structure Comes (work : Work) (own : Option Nat) (around : Stream → Sink) (on : Bool)
    (c : Console) : Prop where
  ending : (work.run own c).1 = (work.share on).ending
  stands : Stands own around (work.share on).on (work.run own c).2
  sound : (work.run own c).2.Sound
  others : Others own c (work.run own c).2
  held : ∀ k, c.Known k →
    (work.run own c).2.held k = c.held k ++ ((work.share on).record own around).textIn k

/-- What a scope leaves, given what is done in it. -/
def leaving (c : Console) (body : Work) : Except Fault Unit × Console :=
  c.capturing fun id => body.run (some id)

/-- The scope is left as it was entered, with its capture over, and what is done in it came to its
share. -/
structure Leaves (c : Console) (body : Work) : Prop where
  ending : (leaving c body).1 = (body.share true).ending
  streams : ∀ stream, (leaving c body).2.current stream = c.current stream
  finished : (leaving c body).2.isFinished c.begin.1 = true
  text : (leaving c body).2.textOf c.begin.1 = String.join (body.share true).own
  sound : (leaving c body).2.Sound
  others : Others none c (leaving c body).2
  held : ∀ k, c.Known k → (leaving c body).2.held k =
    c.held k ++ (delivered c.current (body.share true).around).textIn k

/-- Nothing is recorded in a sink that no entry names. -/
theorem textIn_of_ne {record : Record} {k : Sink} (h : ∀ entry ∈ record, entry.1 ≠ k) :
    record.textIn k = "" := by
  have hnone : record.filter (·.1 == k) = [] :=
    List.filter_eq_nil_iff.mpr fun entry hmem => by simpa using h entry hmem
  rw [Record.textIn, hnone]
  rfl

/-- The texts of a capture as a record. -/
theorem textIn_own (id : Nat) (texts : List String) (k : Sink) :
    Record.textIn (texts.map fun s => (Sink.capture id, s)) k =
      if k = .capture id then String.join texts else "" := by
  split
  · rename_i hk
    have hall : (texts.map fun s => (Sink.capture id, s)).filter (·.1 == k) =
        texts.map fun s => (Sink.capture id, s) := by
      refine List.filter_eq_self.mpr fun entry hmem => ?_
      obtain ⟨s, -, rfl⟩ := List.mem_map.mp hmem
      simp [hk]
    rw [Record.textIn, hall, List.map_map]
    exact congrArg String.join (List.map_id texts)
  · rename_i hk
    refine textIn_of_ne fun entry hmem => ?_
    obtain ⟨s, -, rfl⟩ := List.mem_map.mp hmem
    exact Ne.symm hk

theorem textIn_delivered_of_ne {leads : Stream → Sink} {k : Sink}
    (h : ∀ stream, leads stream ≠ k) (writes : List (Stream × String)) :
    (delivered leads writes).textIn k = "" := by
  refine textIn_of_ne fun entry hmem => ?_
  obtain ⟨write, -, rfl⟩ := List.mem_map.mp hmem
  exact h write.1

/-- **A scope is left with the streams that it was entered with.** -/
theorem Comes.leaves {body : Work} (hk : c.Sound)
    (h : Comes body (some c.begin.1) c.current true c.begin.2) : Leaves c body := by
  have hfinish := h.stands.finish
  have hfinished : (leaving c body).2.isFinished c.begin.1 = true := (hfinish.beside rfl).2 _ rfl
  -- the new capture is none of those that the scope was entered with
  have hnew : ∀ k, c.Known k → k ≠ .capture c.begin.1 := fun k hknown he =>
    Nat.lt_irrefl _ (hknown _ he)
  have hmore : ∀ k, c.Known k → c.begin.2.Known k := fun k hknown =>
    hknown.mono (Others.begin c).length
  have hvacant : c.held (.capture c.begin.1) = "" := by
    simp [Console.held, Console.begin]
  have hheld : ∀ k, c.begin.2.Known k → (leaving c body).2.held k =
      c.held k ++ ((body.share true).record (some c.begin.1) c.current).textIn k :=
        fun k hknown => by
    refine (Console.held_finish _ _ k).trans ((h.held k hknown).trans ?_)
    rw [Console.held_begin]
  refine ⟨h.ending, (hfinish.beside rfl).1, hfinished, ?_, h.sound.after (.finish _), ?_,
    fun k hknown => ?_⟩
  · have hself : c.begin.2.Known (.capture c.begin.1) := fun id he => by
      rw [← Sink.capture.inj he]
      simp [Console.begin]
    rw [Console.textOf_of_finished hfinished, hheld _ hself, hvacant, String.empty_append,
      Share.record, Record.textIn_append, Option.elim_some, textIn_own, if_pos rfl,
      textIn_delivered_of_ne fun stream => hnew _ (hk.current stream), String.append_empty]
  · refine ⟨Nat.le_trans (Others.begin c).length
      (Nat.le_trans h.others.length (Others.finish _ c.begin.1).length), ?_⟩
    intro id capture _ hc
    have hne : some c.begin.1 ≠ some id := fun he => by
      have hlt : id < c.captures.length := (List.getElem?_eq_some_iff.mp hc).1
      rw [← Option.some.inj he] at hlt
      exact Nat.lt_irrefl _ hlt
    exact (((Others.begin c).weaken _).trans (h.others.trans (Others.finish _ _))).same id capture
      hne hc
  · rw [hheld k (hmore k hknown), Share.record, Record.textIn_append, Option.elim_some, textIn_own,
      if_neg (hnew k hknown), String.empty_append]

/-- Work that ends at once. -/
theorem Comes.at_once {work : Work} {ending : Except Fault Unit} (hk : c.Sound)
    (h : Stands own around on c) (hrun : work.run own c = (ending, c))
    (hshare : work.share on = { on, ending }) : Comes work own around on c := by
  refine ⟨?_, ?_, ?_, ?_, fun k _ => ?_⟩
  all_goals rw [hrun]
  · rw [hshare]
  · rw [hshare]
    exact h
  · exact hk
  · exact Others.refl own c
  · rw [hshare]
    cases own <;> simp [Share.record, delivered, Record.textIn]

/-- Work that writes first, leaves the captures as they are, and then goes on as other work. -/
theorem Comes.of_rest {work rest : Work} {writes : List (Stream × String)}
    (h : Stands own around on c) (ho : Others none c later)
    (hfirst : ∀ k, c.Known k →
      later.held k = c.held k ++ (delivered c.current writes).textIn k)
    (hrun : work.run own c = rest.run own later)
    (hshare : work.share on = (rest.share on).before on writes)
    (hrest : Comes rest own around on later) : Comes work own around on c := by
  have hsame : (work.share on).on = (rest.share on).on ∧
      (work.share on).ending = (rest.share on).ending := by
    rw [hshare]
    cases on <;> exact ⟨rfl, rfl⟩
  have hinside : on = true → ∃ id, own = some id ∧ ∀ stream, c.current stream = .capture id :=
    fun hon => by
      obtain ⟨id, capture, hown, -, -, hstreams⟩ := h.inside hon
      exact ⟨id, hown, fun stream => (hstreams stream).1⟩
  have hbeside : on = false → (rest.share on).own = [] := fun hoff => by
    rw [hoff]
    exact own_share_off rest
  refine ⟨?_, ?_, ?_, ?_, fun k hknown => ?_⟩
  all_goals rw [hrun]
  · rw [hsame.2, hrest.ending]
  · rw [hsame.1]
    exact hrest.stands
  · exact hrest.sound
  · exact (ho.weaken own).trans hrest.others
  · rw [hshare, textIn_before hinside (fun hoff => (h.beside hoff).1) writes hbeside,
      hrest.held k (hknown.mono ho.length), hfirst k hknown, String.append_assoc]

/-- **Work comes to its share**, wherever it stands.  The induction is on the work; what is done in
a scope stands in the new capture, and the work after the scope where the scope stood. -/
theorem comes : ∀ (work : Work) {own : Option Nat} {around : Stream → Sink} {on : Bool}
    {c : Console}, c.Sound → Stands own around on c → Comes work own around on c
  | .done, own, around, on, c, hk, h => Comes.at_once hk h rfl rfl
  | .raise fault, own, around, on, c, hk, h => Comes.at_once hk h rfl rfl
  | .finish next, own, around, on, c, hk, h => by
    have hfinish : Others own c (own.elim c c.finish) ∧ (own.elim c c.finish).Sound ∧
        ∀ k, (own.elim c c.finish).held k = c.held k := by
      cases own with
      | none => exact ⟨Others.refl none c, hk, fun _ => rfl⟩
      | some id => exact ⟨Others.finish c id, hk.after (.finish id), Console.held_finish c id⟩
    obtain ⟨hothers, hsound, hheld⟩ := hfinish
    have ih := comes next hsound h.finish
    refine ⟨ih.ending, ih.stands, ih.sound, hothers.trans ih.others, fun k hknown => ?_⟩
    rw [← hheld k]
    exact ih.held k (hknown.mono hothers.length)
  | .write stream s next, own, around, on, c, hk, h => by
    obtain ⟨later, hlater⟩ := (Console.write_ok_iff (s := s)).mpr (h.takes_current stream)
    obtain ⟨hsound, hstands⟩ := h.write hk hlater
    refine Comes.of_rest h (Others.write hlater) (fun k _ => ?_) (by simp only [run, hlater]) rfl
      (comes next hsound hstands)
    rw [Console.held_write hlater]
    simp only [delivered, List.map_cons, List.map_nil, Record.textIn_single]
    by_cases hks : k = c.current stream
    · simp [hks]
    · simp [hks, Ne.symm hks]
  | .scope body next, own, around, on, c, hk, h => by
    have hleaves : Leaves c body :=
      (comes body (hk.after .begin) (Stands.begin h.takes_current hk)).leaves hk
    have hstands := h.of_others hleaves.others hleaves.streams
    cases hb : (leaving c body).1 with
    | ok done =>
      have hleaving : leaving c body = (.ok (), (leaving c body).2) := Prod.ext hb rfl
      refine Comes.of_rest h hleaves.others hleaves.held ?_ ?_ (comes next hleaves.sound hstands)
      · simp only [run]
        rw [← leaving, hleaving]
      · simp only [share, ← hleaves.ending, hb]
    | error fault =>
      have hleaving : leaving c body = (.error fault, (leaving c body).2) := Prod.ext hb rfl
      -- the work goes on as work that only raises the failure
      have hraise : Comes (.raise fault) own around on (leaving c body).2 :=
        Comes.at_once hleaves.sound hstands rfl rfl
      refine Comes.of_rest h hleaves.others hleaves.held ?_ ?_ hraise
      · simp only [run]
        rw [← leaving, hleaving]
      · simp only [share, ← hleaves.ending, hb]

/-! ## 4. Scopes at any depth -/

/-- Every scope is entered where both streams take what is written to them. -/
theorem takes_of_mem_entries : ∀ (work : Work) {own : Option Nat} {around : Stream → Sink}
    {on : Bool} {c : Console}, c.Sound → Stands own around on c →
      ∀ entry ∈ work.entries own c,
        entry.1.Sound ∧ ∀ stream, entry.1.takes (entry.1.current stream) = true
  | .done, _, _, _, _, _, _, _, hmem => by cases hmem
  | .raise _, _, _, _, _, _, _, _, hmem => by cases hmem
  | .finish next, own, around, on, c, hk, h, entry, hmem => by
    have hsound : (own.elim c c.finish).Sound := by
      cases own with
      | none => exact hk
      | some id => exact hk.after (.finish id)
    exact takes_of_mem_entries next hsound h.finish entry hmem
  | .write stream s next, own, around, on, c, hk, h, entry, hmem => by
    obtain ⟨later, hlater⟩ := (Console.write_ok_iff (s := s)).mpr (h.takes_current stream)
    simp only [entries, hlater] at hmem
    obtain ⟨hsound, hstands⟩ := h.write hk hlater
    exact takes_of_mem_entries next hsound hstands entry hmem
  | .scope body next, own, around, on, c, hk, h, entry, hmem => by
    have hbegin := Stands.begin h.takes_current hk
    rcases List.mem_cons.mp hmem with rfl | hmem
    · exact ⟨hk, h.takes_current⟩
    rcases List.mem_append.mp hmem with hbody | hnext
    · exact takes_of_mem_entries body (hk.after .begin) hbegin entry hbody
    · have hleaves : Leaves c body := (comes body (hk.after .begin) hbegin).leaves hk
      rw [← leaving] at hnext
      split at hnext
      · rename_i later hlater
        have heq : (leaving c body).2 = later := congrArg Prod.snd hlater
        rw [← heq] at hnext
        exact takes_of_mem_entries next hleaves.sound
          (h.of_others hleaves.others hleaves.streams) entry hnext
      · cases hnext

/-! ## 5. What is written directly in a scope -/

/-- The texts written directly in the work, not in a scope in it, while its own capture is on. -/
def direct : Work → List String
  | .done => []
  | .write _ s next => s :: next.direct
  | .finish _ => []
  | .scope body next =>
    match (body.share true).ending with
    | .ok () => next.direct
    | .error _ => []
  | .raise _ => []

/-- The scopes directly in the work pass nothing on: nothing is written in them after their captures
are over. -/
def Keeping : Work → Prop
  | .done => True
  | .write _ _ next => next.Keeping
  | .finish next => next.Keeping
  | .scope body next => (body.share true).around = [] ∧ next.Keeping
  | .raise _ => True

/-- Where scopes pass nothing on, a capture gets what is written directly in its scope. -/
theorem own_eq_direct : ∀ {work : Work}, work.Keeping → (work.share true).own = work.direct
  | .done, _ => rfl
  | .write _ s next, h => congrArg (s :: ·) (own_eq_direct (show next.Keeping from h))
  | .finish next, _ => own_share_off next
  | .scope body next, ⟨hbody, hnext⟩ => by
    have ih := own_eq_direct hnext
    unfold share direct
    cases (body.share true).ending with
    | ok done => simp [Share.before, hbody, ih]
    | error fault => simp [Share.before, hbody]
  | .raise _, _ => rfl

/-! ## 6. Nested captures -/

/-- What arrives in the outer streams. -/
theorem textIn_outer (stdoutText stderrText : String) (writes : List (Stream × String))
    (stream : Stream) :
    (delivered (outer stdoutText stderrText).current writes).textIn
      ((outer stdoutText stderrText).current stream) = textTo stream writes := by
  have hsame : ∀ write : Stream × String,
      ((outer stdoutText stderrText).current write.1 ==
        (outer stdoutText stderrText).current stream) = (write.1 == stream) := fun write => by
    cases write.1 <;> cases stream <;> rfl
  simp only [Record.textIn, textTo, delivered, List.filter_map, Function.comp_def, hsame,
    List.map_map]

/-- **Nested captures put back the streams.**  Work in scopes, nested to any depth, each of which
may finish its own capture early, and which a failure may leave at any point: every scope is left
with the streams that it was entered with and with its capture over, and the text of the capture is
what was written while it was the innermost one that was on.  That is what was written directly in
the scope before the capture was finished, and also what was written in a scope in it after that
scope's own capture was over; so it is the former alone where scopes in it pass nothing on.  The
outer streams are the current ones again, and have got what was written while no capture was on. -/
theorem captures_nest (work : Work) (stdoutText stderrText : String) :
    let start := outer stdoutText stderrText
    let last := (work.run none start).2
    (∀ entry ∈ work.entries none start,
      let entered := entry.1
      let body := entry.2
      let id := entered.begin.1
      let left := (entered.capturing fun id => body.run (some id)).2
      (∀ stream, left.current stream = entered.current stream) ∧ left.isFinished id = true ∧
        left.textOf id = String.join (body.share true).own ∧
        (body.Keeping → left.textOf id = String.join body.direct)) ∧
    (work.run none start).1 = (work.share false).ending ∧
    (∀ stream, last.current stream = start.current stream) ∧
    last.stdoutText = stdoutText ++ textTo .out (work.share false).around ∧
    last.stderrText = stderrText ++ textTo .err (work.share false).around := by
  intro start last
  have hk : start.Sound := Console.sound_outer stdoutText stderrText
  have hstands : Stands none start.current false start :=
    ⟨fun stream => by cases stream <;> rfl, (fun _ _ h => by cases h), (fun h => by cases h),
      fun _ => ⟨fun _ => rfl, fun _ h => by cases h⟩⟩
  have hcomes := comes work hk hstands
  have hbeside : (∀ stream, last.current stream = start.current stream) := by
    have h := hcomes.stands
    cases hon : (work.share false).on with
    | false => exact (h.beside hon).1
    | true =>
      obtain ⟨id, _, hid, -⟩ := h.inside hon
      cases hid
  have hheld : ∀ stream, last.held (start.current stream) =
      start.held (start.current stream) ++ textTo stream (work.share false).around :=
    fun stream => by
      rw [← textIn_outer stdoutText stderrText]
      exact hcomes.held _ fun id he => by cases stream <;> cases he
  refine ⟨fun entry hmem => ?_, hcomes.ending, hbeside, hheld .out, hheld .err⟩
  obtain ⟨hsound, htakes⟩ := takes_of_mem_entries work hk hstands entry hmem
  have hleaves : Leaves entry.1 entry.2 :=
    (comes entry.2 (hsound.after .begin) (Stands.begin htakes hsound)).leaves hsound
  refine ⟨hleaves.streams, hleaves.finished, hleaves.text, fun hkeeping => ?_⟩
  rw [← own_eq_direct hkeeping]
  exact hleaves.text

/-- A capture can get more than what is written directly in its scope: the text of a scope in it
whose own capture is over. -/
theorem late_text_goes_to_capture_around :
    ¬ ∀ (work : Work) (stdoutText stderrText : String),
      ∀ entry ∈ work.entries none (outer stdoutText stderrText),
        (entry.1.capturing fun id => entry.2.run (some id)).2.textOf entry.1.begin.1 =
          String.join entry.2.direct := by
  intro h
  let body : Work := .scope (.finish (.write .out "x" .done)) .done
  have htext : ((outer "" "").capturing fun id => body.run (some id)).2.textOf 0 = "x" := by
    decide +kernel
  have hdirect := h (.scope body .done) "" "" (outer "" "", body) List.mem_cons_self
  exact absurd (htext.symm.trans hdirect) (by decide)

end Work

end Dissect
