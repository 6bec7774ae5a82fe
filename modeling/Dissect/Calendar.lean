/-
# Dates and times

The date and time of day, in universal time, of a number of seconds since the beginning of 1970, in
the proleptic Gregorian calendar.  A time stamp may be any JSON number; what the system's clock
types cannot hold is a failure.
-/
import Dissect.Fault.Basic
import Dissect.Files.Errno
import Dissect.Json.Basic

namespace Dissect

/-- A date and a time of day. -/
structure Moment where
  year : Int
  month : Nat
  day : Nat
  hour : Nat
  minute : Nat
  second : Nat
deriving DecidableEq, Repr

namespace Moment

/-- The moment of a number of seconds.  Years are counted from March, so that the leap day is the
last of its year, in eras of four hundred years. -/
def ofSeconds (t : Int) : Moment :=
  let days := t.fdiv 86400 + 719468
  let time := (t.fmod 86400).toNat
  let era := days.fdiv 146097
  let dayOfEra := (days - era * 146097).toNat
  let yearOfEra :=
    (dayOfEra - dayOfEra / 1460 + dayOfEra / 36524 - dayOfEra / 146096) / 365
  let dayOfYear := dayOfEra - (365 * yearOfEra + yearOfEra / 4 - yearOfEra / 100)
  let monthFromMarch := (5 * dayOfYear + 2) / 153
  let day := dayOfYear - (153 * monthFromMarch + 2) / 5 + 1
  let month := if monthFromMarch < 10 then monthFromMarch + 3 else monthFromMarch - 9
  let year : Int := era * 400 + yearOfEra + (if month ≤ 2 then 1 else 0)
  ⟨year, month, day, time / 3600, time / 60 % 60, time % 60⟩

/-- A number with at least two digits. -/
def two (n : Nat) : String := if n < 10 then "0" ++ toString n else toString n

/-- The moment as it stands in a file name. -/
def compact (m : Moment) : String :=
  toString m.year ++ two m.month ++ two m.day ++ "_" ++ two m.hour ++ two m.minute ++ two m.second

/-- The moment as people read it. -/
def text (m : Moment) : String :=
  toString m.year ++ "-" ++ two m.month ++ "-" ++ two m.day ++ " " ++ two m.hour ++ ":" ++
    two m.minute ++ ":" ++ two m.second

/-! ## 1. Time stamps -/

/-- The time stamp does not fit the system's clock. -/
def outOfRange : Fault := .ofText .overflowError "timestamp out of range for platform time_t"

/-- The year does not fit the system's calendar. -/
def yearOutOfRange : Fault :=
  .ofArgs .osError [.int Files.Errno.valueTooLarge.number, .str Files.Errno.valueTooLarge.text]

/-- The whole seconds of a time stamp. -/
def seconds : Json → Except Fault Int
  | .int n => .ok n
  | .bool b => .ok (if b then 1 else 0)
  | .real .nan => .error (.ofText .valueError "Invalid value NaN (not a number)")
  | .real x =>
    match x.floor? with
    | some n => .ok n
    | none => .error outOfRange
  | other =>
    .error (.ofText .typeError
      ("'" ++ other.kind ++ "' object cannot be interpreted as an integer"))

/-- The moment of a time stamp. -/
def ofStamp (stamp : Json) : Except Fault Moment := do
  let t ← seconds stamp
  if t < -9223372036854775808 || 9223372036854775807 < t then throw outOfRange
  if t < -67768040609740800 || 67768036191676799 < t then throw yearOutOfRange
  let m := ofSeconds t
  if 2147483647 < m.year then
    throw (.ofText .overflowError "signed integer is greater than maximum")
  return m

end Moment

end Dissect
