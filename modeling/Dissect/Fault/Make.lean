/-
# Making failures from values

A failure can be made from whatever values somebody gives for its arguments, and a class may demand
more of them than others do: a number of arguments, or a kind for each.  Arguments that do not meet
the demand end in another failure, which says what is wrong with the first one that does not.
-/
import Dissect.Value.Arithmetic
import Dissect.Value.Written

namespace Dissect.Fault

/-- The failure of arguments that a class does not take. -/
def typeFault (text : String) : Fault := .ofText .typeError text

/-- What is said of a value that should have been a text. -/
def shownKind : Value → String
  | .none => "None"
  | v => v.kind

/-! ## 1. Counts -/

/-- The demand for one argument at least and so many at most; the first one has a name. -/
def demandCount (owner first : String) (most : Nat) (args : List Value) : Except Fault Unit :=
  let count := args.length
  if count = 0 then
    .error (typeFault
      (owner ++ ".__init__() missing 1 required positional argument: " ++ Text.quote first))
  else if most < count then
    let bounds := if most = 1 then "2" else "from 2 to " ++ toString (most + 1)
    .error (typeFault
      (owner ++ ".__init__() takes " ++ bounds ++ " positional arguments but " ++
        toString (count + 1) ++ " were given"))
  else .ok ()

/-! ## 2. Groups -/

/-- The demand of a group, which no plain values meet: a text and a sequence of failures. -/
def demandGroup : List Value → Except Fault Unit
  | [.str _, members] =>
    if !members.isSequence then
      .error (typeFault "second argument (exceptions) must be a sequence")
    else if members.truthy then
      .error (.ofText .valueError "Item 0 of second argument (exceptions) is not an exception")
    else
      .error (.ofText .valueError "second argument (exceptions) must be a non-empty sequence")
  | [other, _] =>
    .error (typeFault
      ("BaseExceptionGroup.__new__() argument 1 must be str, not " ++ shownKind other))
  | args =>
    .error (typeFault
      ("BaseExceptionGroup.__new__() takes exactly 2 arguments (" ++ toString args.length ++
        " given)"))

/-! ## 3. Conversions -/

/-- What a conversion failure wants in one place. -/
inductive Slot where
  | text
  | position
  | anything
deriving DecidableEq, Repr

/-- The demand of a place with the given number. -/
def Slot.demand (slot : Slot) (place : Nat) (v : Value) : Except Fault Unit :=
  match slot, v, v.whole? with
  | .anything, _, _ => .ok ()
  | .text, .str _, _ => .ok ()
  | .text, other, _ =>
    .error (typeFault ("argument " ++ toString place ++ " must be str, not " ++ shownKind other))
  | .position, _, some n =>
    if Value.fitsWord n then .ok ()
    else .error (.ofText .overflowError "Python int too large to convert to C ssize_t")
  | .position, other, none =>
    .error (typeFault ("'" ++ other.kind ++ "' object cannot be interpreted as an integer"))

/-- The demands of all places, the first of which has the given number. -/
def demandSlots (place : Nat) : List Slot → List Value → Except Fault Unit
  | slot :: slots, v :: vs => do
    slot.demand place v
    demandSlots (place + 1) slots vs
  | _, _ => .ok ()

/-- The demand of a conversion failure: as many arguments as places, each of its kind. -/
def demandPlaces (slots : List Slot) (args : List Value) : Except Fault Unit :=
  if args.length = slots.length then demandSlots 1 slots args
  else
    .error (typeFault
      ("function takes exactly " ++ toString slots.length ++ " arguments (" ++
        toString args.length ++ " given)"))

/-- The demand for bytes in the second place of a decoding failure. -/
def demandOctets (args : List Value) : Except Fault Unit :=
  match args[1]? with
  | some object =>
    if object.octets?.isSome then .ok ()
    else .error (typeFault ("a bytes-like object is required, not '" ++ object.kind ++ "'"))
  | none => .ok ()

/-! ## 4. Malformed sources -/

/-- The demand on the second of two arguments about malformed source text: four values or six. -/
def demandSource : List Value → Except Fault Unit
  | [_, info] =>
    match info.elements?.map List.length with
    | none => .error (typeFault ("'" ++ info.kind ++ "' object is not iterable"))
    | some 5 => .error (typeFault "end_offset must be provided when end_lineno is provided")
    | some count =>
      let bound := if count < 4 then "at least 4" else "at most 6"
      if 4 ≤ count && count ≤ 6 then .ok ()
      else
        .error (typeFault
          ("function takes " ++ bound ++ " arguments (" ++ toString count ++ " given)"))
  | _ => .ok ()

/-! ## 5. Progress -/

/-- The demand on the progress that a failure to go on without waiting tells. -/
def demandProgress (kind : FaultClass) (args : List Value) : Except Fault Unit :=
  if !tellsProgress kind args then .ok ()
  else
    match args[2]?.bind Value.whole? with
    | none => .error (typeFault "'float' object cannot be interpreted as an integer")
    | some n =>
      if Value.fitsWord n then .ok ()
      else .error (.ofText .valueError "cannot fit 'int' into an index-sized integer")

/-! ## 6. Making -/

/-- The demand of a class on its arguments.  A failure that tells an exit code says so when it is
made. -/
def demand (kind : FaultClass) (args : List Value) : Except Fault Unit :=
  match kind with
  | .toolExitError => do
    demandCount "ToolExitError" "code" 1 args
    (args.head?.getD .none).demandWritten
  | .toolLoadError | .toolAccessError => demandCount "ToolLoadError" "message" 2 args
  | .baseExceptionGroup | .exceptionGroup => demandGroup args
  | .unicodeDecodeError => do
    demandPlaces [.text, .anything, .position, .position, .text] args
    demandOctets args
  | .unicodeEncodeError => demandPlaces [.text, .text, .position, .position, .text] args
  | .unicodeTranslateError => demandPlaces [.text, .position, .position, .text] args
  | .syntaxError | .indentationError | .tabError => demandSource args
  | kind => demandProgress kind args

/-- Makes a failure of a class from arguments, if they meet its demand. -/
def make (kind : FaultClass) (args : List Value) : Except Fault Fault := do
  let fault := ofArgs kind args
  demand fault.kind args
  return fault

end Dissect.Fault
