/-
# Reasoning about steps

A step is a function on hosts, so what a composed step does can be read off its parts.  This file
fixes how: the result of each construction on a given host, and three properties of a step that its
construction carries along.

* `Run.Keeps P`: a property of hosts that holds before the step holds after it, however it ends;
* `Run.Fails E`: every failure in which the step ends is one of the described ones;
* `Run.Agrees R`: on hosts in a relation, the step has one result and leaves hosts in the relation.

Each of the three is closed under all constructions, so a property of a long step is proved of the
few places at which it touches the host.
-/
import Dissect.Host

namespace Dissect.Run

variable {α β : Type}

/-! ## 1. What a step does -/

@[simp] theorem exec_pure (a : α) (host : Host) : (pure a : Run α).exec host = (.ok a, host) := rfl

@[simp] theorem exec_throw (fault : Fault) (host : Host) :
    (throw fault : Run α).exec host = (.error fault, host) := rfl

@[simp] theorem exec_get (host : Host) : (get : Run Host).exec host = (.ok host, host) := rfl

@[simp] theorem exec_set (after host : Host) :
    (set after : Run PUnit).exec host = (.ok (), after) := rfl

@[simp] theorem exec_modify (f : Host → Host) (host : Host) :
    (modify f : Run PUnit).exec host = (.ok (), f host) := rfl

/-- One step after another: the second is carried out unless the first fails. -/
theorem exec_bind (step : Run α) (next : α → Run β) (host : Host) :
    (step >>= next).exec host =
      match step.exec host with
      | (.ok a, after) => (next a).exec after
      | (.error fault, after) => (.error fault, after) := by
  unfold exec
  simp only [bind, ExceptT.bind, ExceptT.mk, StateT.bind, ExceptT.bindCont]
  rcases step host with ⟨_ | _, _⟩ <;> rfl

theorem exec_bind_ok {step : Run α} {next : α → Run β} {host after : Host} {a : α}
    (h : step.exec host = (.ok a, after)) : (step >>= next).exec host = (next a).exec after := by
  rw [exec_bind, h]

theorem exec_bind_error {step : Run α} {next : α → Run β} {host after : Host} {fault : Fault}
    (h : step.exec host = (.error fault, after)) :
    (step >>= next).exec host = (.error fault, after) := by
  rw [exec_bind, h]

@[simp] theorem exec_attempt (step : Run α) (host : Host) :
    (attempt step).exec host = (.ok (step.exec host).1, (step.exec host).2) := rfl

@[simp] theorem exec_ensuring (step : Run α) (tidy : Host → Host) (host : Host) :
    (ensuring step tidy).exec host = ((step.exec host).1, tidy (step.exec host).2) := rfl

/-- The host after a step and its last part is the host that the last part leaves. -/
theorem exec_followedBy_host (step : Run α) (last : Run Unit) (host : Host) :
    ((followedBy step last).exec host).2 = (last.exec (step.exec host).2).2 := by
  simp only [exec, followedBy]
  rcases step host with ⟨result, after⟩
  rcases hl : last after with ⟨_ | _, _⟩ <;> cases result <;> simp [hl]

/-- The history of a failure does not change its class. -/
theorem kind_during (fault earlier : Fault) : (fault.during earlier).kind = fault.kind := by
  obtain ⟨kind, args, cause, context, raised⟩ := fault
  cases context <;> rfl

/-- What a step and its last part end in. -/
theorem exec_followedBy_result (step : Run α) (last : Run Unit) (host : Host) :
    ((followedBy step last).exec host).1 =
      match (last.exec (step.exec host).2).1, (step.exec host).1 with
      | .ok (), result => result
      | .error fault, .ok _ => .error fault
      | .error fault, .error earlier => .error (fault.during earlier) := by
  simp only [exec, followedBy]
  rcases step host with ⟨result, after⟩
  rcases hl : last after with ⟨_ | _, _⟩ <;> cases result <;> simp [hl]

theorem exec_look (f : Host → α) (host : Host) : (look f).exec host = (.ok (f host), host) := rfl

theorem exec_query (f : Host → Except Fault α) (host : Host) :
    (query f).exec host = (f host, host) := by
  unfold query
  rw [exec_bind_ok (exec_get host)]
  cases f host <;> rfl

theorem exec_ofExcept (result : Except Fault α) (host : Host) :
    (ofExcept result).exec host = (result, host) := by
  cases result <;> rfl

theorem exec_changeDisk (f : Files.Disk → Except Fault Files.Disk) (host : Host) :
    (changeDisk f).exec host =
      match f host.disk with
      | .ok disk => (.ok (), { host with disk })
      | .error fault => (.error fault, host) := by
  unfold changeDisk
  rw [exec_bind_ok (exec_get host)]
  cases f host.disk <;> rfl

@[simp] theorem exec_note (level : Level) (message : String) (host : Host) :
    (note level message).exec host = (.ok (), host.noted level message) := rfl

/-- A failure is no value, so a result is known by its value. -/
theorem ok_of_toOption {ε : Type} {result : Except ε α} {a : α} (h : result.toOption = some a) :
    result = .ok a := by
  cases result with
  | ok b => exact congrArg Except.ok (Option.some.inj h)
  | error fault => cases h

/-! ## 2. Properties of the host that a step keeps -/

/-- The step keeps the property, however it ends. -/
def Keeps (P : Host → Prop) (step : Run α) : Prop := ∀ host, P host → P (step.exec host).2

namespace Keeps

variable {P : Host → Prop}

protected theorem pure (a : α) : Keeps P (Pure.pure a : Run α) := fun _ h => h

protected theorem throw (fault : Fault) : Keeps P (MonadExcept.throw fault : Run α) := fun _ h => h

/-- Nothing follows a failure. -/
theorem throw_bind (fault : Fault) (next : α → Run β) :
    Keeps P ((MonadExcept.throw fault : Run α) >>= next) := fun _ h => h

protected theorem get : Keeps P (MonadState.get : Run Host) := fun _ h => h

protected theorem modify {f : Host → Host} (hf : ∀ host, P host → P (f host)) :
    Keeps P (modify f : Run PUnit) := hf

theorem query (f : Host → Except Fault α) : Keeps P (Run.query f) := fun host h => by
  rw [exec_query]
  exact h

theorem ofExcept (result : Except Fault α) : Keeps P (Run.ofExcept result) := fun host h => by
  rw [exec_ofExcept]
  exact h

/-- What follows a step may use what is known of the step's results. -/
theorem bind_knowing {Q : α → Prop} {step : Run α} {next : α → Run β} (hs : Keeps P step)
    (hq : ∀ host a after, P host → step.exec host = (.ok a, after) → Q a)
    (hn : ∀ a, Q a → Keeps P (next a)) : Keeps P (step >>= next) := by
  intro host h
  have hafter := hs host h
  rw [exec_bind]
  cases hr : step.exec host with
  | mk result after =>
    rw [hr] at hafter
    cases result with
    | error fault => exact hafter
    | ok a => exact hn a (hq host a after h hr) after hafter

protected theorem bind {step : Run α} {next : α → Run β} (hs : Keeps P step)
    (hn : ∀ a, Keeps P (next a)) : Keeps P (step >>= next) :=
  hs.bind_knowing (Q := fun _ => True) (fun _ _ _ _ _ => trivial) fun a _ => hn a

/-- A step that first reads the host may use what is known of it. -/
theorem get_bind {next : Host → Run β} (hn : ∀ host, P host → P ((next host).exec host).2) :
    Keeps P ((MonadState.get : Run Host) >>= next) := fun host h => by
  rw [exec_bind_ok (exec_get host)]
  exact hn host h

theorem attempt {step : Run α} (hs : Keeps P step) : Keeps P (Run.attempt step) := fun host h => by
  rw [exec_attempt]
  exact hs host h

theorem followedBy {step : Run α} {last : Run Unit} (hs : Keeps P step) (hl : Keeps P last) :
    Keeps P (Run.followedBy step last) := fun host h => by
  rw [exec_followedBy_host]
  exact hl _ (hs host h)

theorem changeDisk {f : Files.Disk → Except Fault Files.Disk}
    (hf : ∀ host disk, P host → f host.disk = .ok disk → P { host with disk }) :
    Keeps P (Run.changeDisk f) := fun host h => by
  rw [exec_changeDisk]
  cases hd : f host.disk with
  | error fault => exact h
  | ok disk => exact hf host disk h hd

end Keeps

/-! ## 3. The failures of a step -/

/-- Every failure of the step is one of the described ones. -/
def Fails (E : Fault → Prop) (step : Run α) : Prop :=
  ∀ host fault, (step.exec host).1 = .error fault → E fault

namespace Fails

variable {E : Fault → Prop}

protected theorem pure (a : α) : Fails E (Pure.pure a : Run α) := fun _ _ h => by cases h

protected theorem throw {fault : Fault} (hf : E fault) :
    Fails E (MonadExcept.throw fault : Run α) := fun _ _ h => by
  cases h
  exact hf

protected theorem get : Fails E (MonadState.get : Run Host) := fun _ _ h => by cases h

protected theorem set (host : Host) : Fails E (MonadStateOf.set host : Run PUnit) :=
  fun _ _ h => by cases h

theorem note (level : Level) (message : String) : Fails E (Run.note level message) :=
  fun _ _ h => by cases h

theorem query {f : Host → Except Fault α} (hf : ∀ host fault, f host = .error fault → E fault) :
    Fails E (Run.query f) := fun host fault h => by
  rw [exec_query] at h
  exact hf host fault h

theorem ofExcept {result : Except Fault α} (hr : ∀ fault, result = .error fault → E fault) :
    Fails E (Run.ofExcept result) := fun host fault h => by
  rw [exec_ofExcept] at h
  exact hr fault h

protected theorem bind {step : Run α} {next : α → Run β} (hs : Fails E step)
    (hn : ∀ a, Fails E (next a)) : Fails E (step >>= next) := by
  intro host fault h
  have hfail := hs host
  rw [exec_bind] at h
  cases hr : step.exec host with
  | mk result after =>
    rw [hr] at h hfail
    cases result with
    | error trouble =>
      cases h
      exact hfail _ rfl
    | ok a => exact hn a after fault h

end Fails

/-! ## 4. Steps on related hosts -/

/-- On related hosts the step has one result, and it leaves related hosts. -/
def Agrees (R : Host → Host → Prop) (step : Run α) : Prop :=
  ∀ host other, R host other →
    (step.exec host).1 = (step.exec other).1 ∧ R (step.exec host).2 (step.exec other).2

namespace Agrees

variable {R : Host → Host → Prop}

protected theorem pure (a : α) : Agrees R (Pure.pure a : Run α) := fun _ _ h => ⟨rfl, h⟩

protected theorem throw (fault : Fault) : Agrees R (MonadExcept.throw fault : Run α) :=
  fun _ _ h => ⟨rfl, h⟩

theorem throw_bind (fault : Fault) (next : α → Run β) :
    Agrees R ((MonadExcept.throw fault : Run α) >>= next) := fun _ _ h => ⟨rfl, h⟩

protected theorem modify {f : Host → Host}
    (hf : ∀ host other, R host other → R (f host) (f other)) :
    Agrees R (modify f : Run PUnit) := fun host other h => ⟨rfl, hf host other h⟩

theorem query {f : Host → Except Fault α} (hf : ∀ host other, R host other → f host = f other) :
    Agrees R (Run.query f) := fun host other h => by
  simp only [exec_query]
  exact ⟨hf host other h, h⟩

theorem ofExcept (result : Except Fault α) : Agrees R (Run.ofExcept result) :=
  fun host other h => by
    rw [exec_ofExcept, exec_ofExcept]
    exact ⟨rfl, h⟩

protected theorem bind {step : Run α} {next : α → Run β} (hs : Agrees R step)
    (hn : ∀ a, Agrees R (next a)) : Agrees R (step >>= next) := by
  intro host other h
  obtain ⟨hresult, hafter⟩ := hs host other h
  simp only [exec_bind]
  cases hr : step.exec host with
  | mk result after =>
    cases hr' : step.exec other with
    | mk result' after' =>
      rw [hr, hr'] at hresult hafter
      cases hresult
      cases result with
      | error fault => exact ⟨rfl, hafter⟩
      | ok a => exact hn a after after' hafter

/-- A step that first reads the host may do with it what gives the same on related hosts. -/
theorem get_bind {next : Host → Run β}
    (hn : ∀ host other, R host other →
      ((next host).exec host).1 = ((next other).exec other).1 ∧
        R ((next host).exec host).2 ((next other).exec other).2) :
    Agrees R ((MonadState.get : Run Host) >>= next) := fun host other h => by
  simp only [exec_bind_ok (exec_get _)]
  exact hn host other h

theorem attempt {step : Run α} (hs : Agrees R step) : Agrees R (Run.attempt step) :=
  fun host other h => by
    obtain ⟨hresult, hafter⟩ := hs host other h
    simp only [exec_attempt]
    exact ⟨by rw [hresult], hafter⟩

theorem ensuring {step : Run α} {tidy : Host → Host} (hs : Agrees R step)
    (ht : ∀ host other, R host other → R (tidy host) (tidy other)) :
    Agrees R (Run.ensuring step tidy) := fun host other h => by
  obtain ⟨hresult, hafter⟩ := hs host other h
  simp only [exec_ensuring]
  exact ⟨hresult, ht _ _ hafter⟩

theorem changeDisk {f : Files.Disk → Except Fault Files.Disk}
    (hd : ∀ host other, R host other → host.disk = other.disk)
    (hf : ∀ host other disk, R host other → R { host with disk } { other with disk }) :
    Agrees R (Run.changeDisk f) := fun host other h => by
  simp only [exec_changeDisk, hd host other h]
  cases f other.disk with
  | error fault => exact ⟨rfl, h⟩
  | ok disk => exact ⟨rfl, hf host other disk h⟩

end Agrees

/-! ## 5. Where a step fails -/

/-- A step, carried out on a host, ends in a failure. -/
def FailsAt (step : Run α) (host : Host) : Prop := ∃ fault, (step.exec host).1 = .error fault

namespace FailsAt

variable {host : Host} {step : Run α} {next : α → Run β}

protected theorem pure (a : α) : ¬ FailsAt (Pure.pure a : Run α) host := by
  rintro ⟨_, h⟩
  cases h

protected theorem query {f : Host → Except Fault α} :
    FailsAt (Run.query f) host ↔ ∃ fault, f host = .error fault := by
  unfold FailsAt
  rw [exec_query]

/-- A step that does not fail returns. -/
theorem not_iff : ¬ FailsAt step host ↔ ∃ a after, step.exec host = (.ok a, after) := by
  unfold FailsAt
  rcases step.exec host with ⟨fault | a, after⟩
  · exact iff_of_false (fun hreturns => hreturns ⟨fault, rfl⟩) fun ⟨_, _, hno⟩ => by cases hno
  · exact iff_of_true (fun ⟨_, hno⟩ => by cases hno) ⟨a, after, rfl⟩

/-- One step after another fails if the first does, or if the second does on what the first
leaves. -/
theorem bind_iff : FailsAt (step >>= next) host ↔
    FailsAt step host ∨ ∃ a after, step.exec host = (.ok a, after) ∧ FailsAt (next a) after := by
  unfold FailsAt
  rcases h : step.exec host with ⟨fault | a, after⟩
  · rw [exec_bind_error h]
    exact ⟨fun _ => .inl ⟨fault, rfl⟩, fun _ => ⟨fault, rfl⟩⟩
  · rw [exec_bind_ok h]
    constructor
    · exact fun hfails => .inr ⟨a, after, rfl, hfails⟩
    · rintro (⟨_, hno⟩ | ⟨_, _, hok, hfails⟩)
      · cases hno
      · cases hok
        exact hfails

/-- Where the second step never fails, only the first one counts. -/
theorem bind_iff_first (hn : ∀ a after, ¬ FailsAt (next a) after) :
    FailsAt (step >>= next) host ↔ FailsAt step host := by
  rw [bind_iff]
  constructor
  · rintro (h | ⟨a, after, -, h⟩)
    · exact h
    · exact absurd h (hn a after)
  · exact .inl

/-- Where the first step does not fail, only the second one counts. -/
theorem bind_iff_second {a : α} {after : Host} (h : step.exec host = (.ok a, after)) :
    FailsAt (step >>= next) host ↔ FailsAt (next a) after := by
  unfold FailsAt
  rw [exec_bind_ok h]

end FailsAt

end Dissect.Run
