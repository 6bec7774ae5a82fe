/-
# The system shell

The shell runs command files.  It is known here only as far as the few commands that command files
around a tool are made of: to leave with a status, to do nothing, to write words; any other command
is one that it does not find.
-/
import Dissect.Text.Blank
import Dissect.Text.Scan
import Dissect.Tool.Program

namespace Dissect.Shell

open Text (Bytes)

/-! ## 1. Words -/

/-- How characters of a line are read: as they are, or inside quotes of either kind. -/
inductive Mode where
  | plain
  | single
  | double
deriving DecidableEq, Repr

/-- The word that was being read, if there is one, before others. -/
def close (word : Option (List Char)) (rest : List (List Char)) : List (List Char) :=
  match word with
  | some cs => cs.reverse :: rest
  | none => rest

/-- One more character of the word that is being read. -/
def extend (word : Option (List Char)) (c : Char) : Option (List Char) := some (c :: word.getD [])

/-- The words in the rest of a line.  A mark of a comment where a word could begin ends the line. -/
def wordsFrom : Mode → Option (List Char) → List Char → List (List Char)
  | _, word, [] => close word []
  | .single, word, c :: rest =>
    if c = '\'' then wordsFrom .plain word rest else wordsFrom .single (extend word c) rest
  | .double, word, '\\' :: c :: rest =>
    if ['"', '\\', '$', '\x60'].contains c then wordsFrom .double (extend word c) rest
    else wordsFrom .double (extend (extend word '\\') c) rest
  | .double, word, c :: rest =>
    if c = '"' then wordsFrom .plain word rest else wordsFrom .double (extend word c) rest
  | .plain, word, '\\' :: c :: rest => wordsFrom .plain (extend word c) rest
  | .plain, word, c :: rest =>
    if c = ' ' || c = '\t' then close word (wordsFrom .plain none rest)
    else if c = '#' && word.isNone then []
    else if c = '\'' then wordsFrom .single (some (word.getD [])) rest
    else if c = '"' then wordsFrom .double (some (word.getD [])) rest
    else wordsFrom .plain (extend word c) rest

/-- The words of a line. -/
def words (line : String) : List String :=
  (wordsFrom .plain none line.toList).map String.ofList

/-! ## 2. Sessions -/

/-- The options that have a meaning here: to stop at the first command that fails, to show every
command, and to run none. -/
structure Options where
  stops : Bool := false
  shows : Bool := false
  idle : Bool := false
deriving DecidableEq, Repr

/-- What the shell has written so far, and the status of its last command. -/
abbrev Session := ProcessResult

namespace Session

/-- Writes to the standard output. -/
def write (session : Session) (s : String) : Session :=
  { session with stdout := session.stdout ++ Text.encode s, status := 0 }

/-- Complains about something in a line. -/
def complain (session : Session) (name : String) (line : Nat) (what : String) (status : Int) :
    Session :=
  let complaint := name ++ ": " ++ toString line ++ ": " ++ what ++ "\n"
  { session with stderr := session.stderr ++ Text.encode complaint, status }

end Session

/-- The value of a row of digits, which blanks may follow. -/
def number? (s : String) : Option Int :=
  let digits := s.toList.takeWhile Char.isDigit
  if digits.isEmpty || !(s.toList.drop digits.length).all Text.isBlank then none
  else some (digits.foldl (fun (n : Int) c => n * 10 + ((c.toNat - '0'.toNat : Nat) : Int)) 0)

/-- The text of escapes in what is to be written. -/
def unescape : List Char → List Char
  | '\\' :: 'n' :: rest => '\n' :: unescape rest
  | '\\' :: 't' :: rest => '\t' :: unescape rest
  | '\\' :: 'r' :: rest => '\r' :: unescape rest
  | '\\' :: '\\' :: rest => '\\' :: unescape rest
  | c :: rest => c :: unescape rest
  | [] => []

/-- What writing words writes. -/
def written (words : List String) : String :=
  let text (words : List String) := String.ofList (unescape (Text.join " " words).toList)
  match words with
  | "-n" :: rest => text rest
  | words => text words ++ "\n"

/-- Leaves with a status that may be given. -/
def leave (name : String) (line : Nat) (session : Session) : List String → Session
  | [] => session
  | code :: _ =>
    match number? code with
    | some n => { session with status := n.emod 256 }
    | none => session.complain name line ("exit: Illegal number: " ++ code) 2

/-- Carries out a command that does not leave. -/
def obey (name : String) (line : Nat) (session : Session) : List String → Session
  | [] => session
  | "true" :: _ => { session with status := 0 }
  | ":" :: _ => { session with status := 0 }
  | "false" :: _ => { session with status := 1 }
  | "echo" :: rest => session.write (written rest)
  | command :: _ => session.complain name line (command ++ ": not found") 127

/-- Runs the lines of a script from the one with the given number on. -/
def runLines (options : Options) (name : String) (session : Session) (number : Nat) :
    List String → Session
  | [] => session
  | line :: rest =>
    let words := words line
    let shown := if options.shows && !words.isEmpty then "+ " ++ Text.join " " words ++ "\n" else ""
    let session := { session with stderr := session.stderr ++ Text.encode shown }
    match words with
    | "exit" :: arguments => leave name number session arguments
    | words =>
      let session := obey name number session words
      if options.stops && session.status != 0 then session
      else runLines options name session (number + 1) rest

/-- Runs a script under a name.  NULs in it do not count. -/
def run (options : Options) (name : String) (source : Bytes) : ProcessResult :=
  if options.idle then ⟨[], [], 0⟩
  else
    let text := Text.decodeLossy (source.filter (· != 0))
    runLines options name ⟨[], [], 0⟩ 1 (Text.splitAt text '\n')

/-! ## 3. Requests -/

/-- What the arguments ask the shell for: nothing that can be done, to run a text, or to run a file
with arguments. -/
inductive Request where
  | refusal (result : ProcessResult)
  | text (options : Options) (name source : String)
  | file (options : Options) (path : String) (arguments : List String)

/-- The refusal of a request, under the name of the shell. -/
def refuse (name what : String) : ProcessResult :=
  Session.complain ⟨[], [], 0⟩ name 0 what 2

/-- The letters of the options that the shell has. -/
def optionLetters : List Char := "abefilmnpsuvxCEIV".toList

/-- Options after some more letters, or the first letter that is no option. -/
def Options.set (on : Bool) : Options → List Char → Except Char Options
  | options, [] => .ok options
  | options, 'e' :: rest => Options.set on { options with stops := on } rest
  | options, 'x' :: rest => Options.set on { options with shows := on } rest
  | options, 'n' :: rest => Options.set on { options with idle := on } rest
  | options, c :: rest =>
    if optionLetters.contains c then Options.set on options rest else .error c

/-- The request that arguments make after some options, one of which may have asked for a text. -/
def Request.after (name : String) (options : Options) (isText : Bool) : List String → Request
  | [] =>
    if isText then .refusal (refuse name "-c requires an argument") else .refusal ⟨[], [], 0⟩
  | first :: rest =>
    if isText then .text options (rest.head?.getD name) first else .file options first rest

/-- The request that arguments make to the shell of a name. -/
def Request.ofArguments (name : String) (options : Options) (isText : Bool) :
    List String → Request
  | [] => Request.after name options isText []
  | argument :: rest =>
    match argument.toList with
    | sign :: letters =>
      if sign != '-' && sign != '+' then Request.after name options isText (argument :: rest)
      else if argument = "-" || argument = "--" then Request.after name options isText rest
      else
        match options.set (sign = '-') (letters.filter (· != 'c')) with
        | .ok options => Request.ofArguments name options (isText || letters.contains 'c') rest
        | .error c =>
          .refusal (refuse name ("Illegal option " ++ String.ofList [sign, c]))
    | [] => Request.after name options isText (argument :: rest)

end Dissect.Shell
