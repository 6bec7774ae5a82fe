/-
# Writing values

A value is written in its plain text or in its quoted form.  Where an obstacle keeps it from being
written, asking for either is a failure.
-/
import Dissect.Fault.Basic

namespace Dissect.Value

/-- The failure of writing a whole number of too many digits. -/
def digitsFault : Fault := Fault.ofObstacle .digits

/-- The demand for a value that can be written. -/
def demandWritten (v : Value) : Except Fault Unit :=
  match v.obstacle? maxLevels with
  | some obstacle => .error (Fault.ofObstacle obstacle)
  | Option.none => .ok ()

theorem demandWritten_ok_iff {v : Value} :
    v.demandWritten = .ok () ↔ v.obstacle? maxLevels = Option.none := by
  unfold demandWritten
  cases v.obstacle? maxLevels <;> simp

/-- An obstacle is all that the demand can fail for. -/
theorem demandWritten_error {v : Value} {fault : Fault} (h : v.demandWritten = .error fault) :
    ∃ obstacle, fault = Fault.ofObstacle obstacle := by
  unfold demandWritten at h
  split at h
  · rename_i obstacle _
    exact ⟨obstacle, (Except.error.inj h).symm⟩
  · cases h

/-- The quoted form of a value, if it can be written. -/
def written (v : Value) : Except Fault String := do
  v.demandWritten
  return v.quoted

/-- The plain text of a value, if it can be written. -/
def told (v : Value) : Except Fault String := do
  v.demandWritten
  return v.text

end Dissect.Value
