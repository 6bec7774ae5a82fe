/-
# Failures

A failure is a class, the arguments it was made with, and its history: the failure that caused it
and the one that was being handled when it arose.  Its message is read off the class and the
arguments, so two failures with the same class and arguments read alike.  Arguments are any values,
and not all of them can be written: telling the message of a failure can fail as well (`tell`).
-/
import Dissect.Fault.Class
import Dissect.Fault.Source
import Dissect.Value.Obstacle

namespace Dissect

/-- A failure.  One that was raised has travelled through a call; one that was only made has not. -/
structure Fault where
  kind : FaultClass
  args : List Value := []
  cause : Option Fault := none
  context : Option Fault := none
  raised : Bool := true
deriving Repr

namespace Fault

/-! ## 1. Making failures -/

/-- A failure whose only argument is a text. -/
def ofText (kind : FaultClass) (text : String) : Fault := { kind, args := [.str text] }

/-- The failure with the given cause. -/
def causedBy (fault cause : Fault) : Fault := { fault with cause := some cause }

/-- The failure while another one is handled. -/
def whileHandling (fault context : Fault) : Fault := { fault with context := some context }

/-- The failure as one that arose, with all its history, while an earlier one was handled. -/
def during : Fault → Fault → Fault
  | ⟨kind, args, cause, some context, raised⟩, earlier =>
    ⟨kind, args, cause, some (during context earlier), raised⟩
  | ⟨kind, args, cause, none, raised⟩, earlier => ⟨kind, args, cause, some earlier, raised⟩

/-- The failure that a stop of iteration becomes where it would leave a generator. -/
def strayStop (stop : Fault) : Fault :=
  (ofText .runtimeError "generator raised StopIteration").causedBy stop

/-- The failure as it leaves a generator. -/
def outOfGenerator (fault : Fault) : Fault :=
  if fault.kind.isA .stopIteration then fault.strayStop else fault

/-- The failure after it has been raised. -/
def afterRaise (fault : Fault) : Fault := { fault with raised := true }

/-- The narrower class that an operating-system error number selects. -/
def classOfErrno (n : Int) : FaultClass :=
  if n = 1 || n = 13 then .permissionError
  else if n = 2 then .fileNotFoundError
  else if n = 3 then .processLookupError
  else if n = 4 then .interruptedError
  else if n = 10 then .childProcessError
  else if n = 11 || n = 114 || n = 115 then .blockingIOError
  else if n = 17 then .fileExistsError
  else if n = 20 then .notADirectoryError
  else if n = 21 then .isADirectoryError
  else if n = 32 || n = 108 then .brokenPipeError
  else if n = 103 then .connectionAbortedError
  else if n = 104 then .connectionResetError
  else if n = 110 then .timeoutError
  else if n = 111 then .connectionRefusedError
  else .osError

/-- An operating-system failure that has a number and a text beside it. -/
def isNumbered (args : List Value) : Bool := 2 ≤ args.length && args.length ≤ 5

/-- The failure made by a class from arguments.  The general operating-system class gives way to
the narrower one that its number selects. -/
def ofArgs (kind : FaultClass) (args : List Value) : Fault :=
  match kind, args with
  | .osError, number :: _ =>
    match isNumbered args, number.whole? with
    | true, some n => { kind := classOfErrno n, args }
    | _, _ => { kind, args }
  | _, _ => { kind, args }

/-! ## 2. Messages -/

/-- A part of a message: a fixed text, or a value in its plain text or in its quoted form. -/
inductive Part where
  | fixed (s : String)
  | plain (v : Value)
  | quoted (v : Value)
deriving Repr

/-- The text of a part. -/
def Part.text : Part → String
  | .fixed s => s
  | .plain v => v.text
  | .quoted v => v.quoted

/-- What keeps a part from being written. -/
def Part.obstacle? : Part → Option Value.Obstacle
  | .fixed _ => none
  | .plain v => v.obstacle? Value.maxLevels
  | .quoted v => v.obstacle? Value.maxLevels

/-- The text that parts make up. -/
def wording : List Part → String
  | [] => ""
  | [part] => part.text
  | part :: rest => part.text ++ wording rest

/-- The parts of the general case: nothing, the text of the only argument, or the quoted form of
several. -/
def plainParts : List Value → List Part
  | [] => []
  | [arg] => [.plain arg]
  | args => [.quoted (.tuple args)]

/-- The parts of an operating-system failure: its number and text, and the files concerned. -/
def systemParts (args : List Value) : List Part :=
  let head (number text : Value) : List Part :=
    [.fixed "[Errno ", .plain number, .fixed "] ", .plain text]
  match args with
  | [number, text] => head number text
  | [number, text, .none] => head number text
  | [number, text, file] => head number text ++ [.fixed ": ", .quoted file]
  | [number, text, .none, _] => head number text
  | [number, text, file, _] => head number text ++ [.fixed ": ", .quoted file]
  | [number, text, .none, _, _] => head number text
  | [number, text, file, _, .none] => head number text ++ [.fixed ": ", .quoted file]
  | [number, text, file, _, other] =>
    head number text ++ [.fixed ": ", .quoted file, .fixed " -> ", .quoted other]
  | args => plainParts args

/-- A failure to go on without waiting may say in the place of a file how much was written. -/
def tellsProgress (kind : FaultClass) (args : List Value) : Bool :=
  kind = .blockingIOError && isNumbered args && (args[2]?).any Value.isNumber

/-- A stretch of something that could not be converted: what is said of it is the one item that it
holds, or where it begins and ends.  Positions are machine words. -/
def stretchText (item : String) (one : Option String) (start stop : Int) : String :=
  let last := (stop - 1).bmod (Nat.pow 2 64)
  match (if stop = start + 1 then one else none) with
  | some shown => item ++ " " ++ shown ++ " in position " ++ toString start
  | none => item ++ "s in position " ++ toString start ++ "-" ++ toString last

/-- The byte at a position, in digits; before the first byte stands 0xff, or 0x00 if there is
none. -/
def shownByte (data : Text.Bytes) (position : Int) : Option String :=
  let before : UInt8 := if data.isEmpty then 0x00 else 0xff
  (if position < 0 then some before else data[position.toNat]?).map fun b =>
    "0x" ++ Text.hex [b]

/-- The escape of the character at a position. -/
def shownChar (text : String) (position : Int) : Option String :=
  if position < 0 then none
  else
    (text.toList[position.toNat]?).map fun c =>
      "'" ++ String.ofList (Text.escapeCode (Text.codeOf c)) ++ "'"

/-- The parts about a codec that could not convert: what it is, what it could not do, and why. -/
def codecParts (codec : Value) (refusal stretch : String) (reason : Value) : List Part :=
  [.fixed "'", .plain codec, .fixed ("' codec can't " ++ refusal ++ " " ++ stretch ++ ": "),
    .plain reason]

/-- The parts of a decoding failure: codec, bytes, start, end and reason. -/
def decodeParts (args : List Value) : List Part :=
  match args with
  | [codec, object, start, stop, reason] =>
    match object.octets?, start.whole?, stop.whole? with
    | some data, some start, some stop =>
      codecParts codec "decode" (stretchText "byte" (shownByte data start) start stop) reason
    | _, _, _ => plainParts args
  | args => plainParts args

/-- The parts of an encoding failure: codec, text, start, end and reason. -/
def encodeParts (args : List Value) : List Part :=
  match args with
  | [codec, .str text, start, stop, reason] =>
    match start.whole?, stop.whole? with
    | some start, some stop =>
      codecParts codec "encode" (stretchText "character" (shownChar text start) start stop) reason
    | _, _ => plainParts args
  | args => plainParts args

/-- The parts of a failure to map characters: text, start, end and reason. -/
def translateParts (args : List Value) : List Part :=
  match args with
  | [.str text, start, stop, reason] =>
    match start.whole?, stop.whole? with
    | some start, some stop =>
      [.fixed ("can't translate " ++ stretchText "character" (shownChar text start) start stop ++
        ": "), .plain reason]
    | _, _ => plainParts args
  | args => plainParts args

/-- The parts of a failure's message. -/
def parts (fault : Fault) : List Part :=
  match fault.kind, fault.args with
  | .toolExitError, code :: _ => [.fixed "Tool exited with status ", .plain code]
  | .toolLoadError, text :: _ => [.plain text]
  | .toolAccessError, text :: _ => [.plain text]
  | .keyError, [key] => [.quoted key]
  | .unicodeDecodeError, args => decodeParts args
  | .unicodeEncodeError, args => encodeParts args
  | .unicodeTranslateError, args => translateParts args
  | kind, args =>
    if kind.isA .syntaxError then
      [.plain (args.head?.getD .none), .fixed (SourcePlace.noteOf args)]
    else if tellsProgress kind args then systemParts (args.take 2)
    else if kind.isA .osError && isNumbered args then systemParts args
    else plainParts args

/-- The message of a failure, as it reads if all its parts can be written. -/
def message (fault : Fault) : String := wording fault.parts

/-! ## 3. Telling -/

/-- The failure of writing a value that has an obstacle. -/
def ofObstacle : Value.Obstacle → Fault
  | .digits =>
    .ofText .valueError
      ("Exceeds the limit (4300 digits) for integer string conversion; " ++
        "use sys.set_int_max_str_digits() to increase the limit")
  | .depth =>
    .ofText .recursionError
      "maximum recursion depth exceeded while getting the repr of an object"

/-- The failure to tell of the single character before the first. -/
def positionTrouble : Fault :=
  { ofText .systemError "<class 'str'> returned a result with an exception set" with
    cause := some { ofText .indexError "string index out of range" with raised := false } }

/-- The stretch is the single character that ends before a text begins, or earlier. -/
def isBeforeText (start stop : Value) : Bool :=
  match start.whole?, stop.whole? with
  | some start, some stop => start < 0 && stop = start + 1
  | _, _ => false

/-- The trouble with the position that a failure tells, if there is any. -/
def positionTrouble? (fault : Fault) : Option Fault :=
  match fault.kind, fault.args with
  | .unicodeEncodeError, [_, .str _, start, stop, _] =>
    if isBeforeText start stop then some positionTrouble else none
  | .unicodeTranslateError, [.str _, start, stop, _] =>
    if isBeforeText start stop then some positionTrouble else none
  | _, _ => none

/-- What keeps the message from being told, if anything does: the position that it tells, or the
first of its parts that cannot be written. -/
def trouble? (fault : Fault) : Option Fault :=
  fault.positionTrouble?.or ((fault.parts.findSome? Part.obstacle?).map ofObstacle)

/-- Tells the message, if nothing keeps it from being told. -/
def tell (fault : Fault) : Except Fault String :=
  match fault.trouble? with
  | some trouble => .error trouble
  | none => .ok fault.message

/-- The failure that is made in a failure's place, of its message, and is caused by it.  Where the
message cannot be told, the trouble with it arises instead. -/
def retold (make : String → Fault) (fault : Fault) : Fault :=
  match fault.tell with
  | .ok message => (make message).causedBy fault
  | .error trouble => trouble.whileHandling fault

/-- The name of the failure's class. -/
def name (fault : Fault) : String := fault.kind.name

/-- The failure belongs to the class. -/
def isA (fault : Fault) (kind : FaultClass) : Bool := fault.kind.isA kind

/-- The code that a request to exit carries: nothing, the only argument, or all of them. -/
def exitCode (fault : Fault) : Value :=
  match fault.args with
  | [] => .none
  | [code] => code
  | codes => .tuple codes

end Fault

end Dissect
