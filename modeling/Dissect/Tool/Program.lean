/-
# Executable programs

What is known of an executable: what it writes and how it ends, as a function of its arguments, its
environment and the file that its last argument names.
-/
import Dissect.Text.Utf8

namespace Dissect

open Text (Bytes)

/-- How a process ends: by itself with a status, or by a signal. -/
inductive Ending where
  | exit (status : Int)
  | signal (number : Nat)
deriving DecidableEq, Repr

/-- The status that a parent sees: the low eight bits, or the negated signal, which has seven. -/
def Ending.status : Ending → Int
  | .exit status => status.emod 256
  | .signal number => -((number % 128 : Nat) : Int)

/-- What a program answers when it is asked for its version. -/
structure VersionReply where
  stdout : Bytes
  stderr : Bytes
  status : Int
deriving DecidableEq, Repr

/-- The behaviour of a program. -/
structure Program where
  version : Option VersionReply := none
  echoArguments : Bool := false
  echoVariables : List String := []
  copiesLast : Bool := false
  stdout : Bytes := []
  stderr : Bytes := []
  ending : Ending := .exit 0
deriving DecidableEq, Repr

/-- What a finished process leaves. -/
structure ProcessResult where
  stdout : Bytes
  stderr : Bytes
  status : Int
deriving DecidableEq, Repr

namespace Program

/-- A text on a line of its own. -/
def line (s : String) : Bytes := Text.encodeArgument s ++ [10]

/-- The line that shows a variable of the environment. -/
def variableLine (environment : List (String × String)) (name : String) : Bytes :=
  line (name ++ "=" ++ (environment.lookup name).getD "<unset>")

/-- Runs the program.  `contents` are the bytes of the file that the last argument names, or the
complaint about it. -/
def run (p : Program) (arguments : List String) (environment : List (String × String))
    (contents : Except String Bytes) : ProcessResult :=
  match p.version, arguments.contains "-version" with
  | some reply, true => ⟨reply.stdout, reply.stderr, (Ending.exit reply.status).status⟩
  | _, _ =>
    let echoed := if p.echoArguments then arguments.flatMap line else []
    let shown := p.echoVariables.flatMap (variableLine environment)
    let copied : Bytes × Bytes :=
      if p.copiesLast then
        match contents with
        | .ok data => (data, [])
        | .error complaint => ([], line complaint)
      else ([], [])
    ⟨echoed ++ shown ++ copied.1 ++ p.stdout, copied.2 ++ p.stderr, p.ending.status⟩

end Program

end Dissect
