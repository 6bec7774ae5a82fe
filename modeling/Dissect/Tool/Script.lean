/-
# Tool modules

A module of a tool is a script: what it does when it is loaded, and the names it offers, each a
routine or a plain value.  What a routine does is a list of actions.
-/
import Dissect.Fault.Basic

namespace Dissect

/-- One thing that a tool's code does. -/
inductive Action where
  /-- Write to the current output stream. -/
  | out (s : String)
  /-- Write to the current error stream. -/
  | err (s : String)
  /-- Print the arguments. -/
  | arguments
  /-- Print the bytes of the last argument's file in hexadecimal. -/
  | hex
  /-- Demand that the file starts with the class-file magic number. -/
  | magic
  /-- Print the file's bytes after the magic number as a class name. -/
  | className
  /-- Count the calls of the module and print the count. -/
  | count
  /-- Ask to exit. -/
  | exit (code : Value)
  /-- Raise a failure. -/
  | raise (fault : Fault)
  /-- Load another module and say so. -/
  | load (name : String)
  /-- Print whether a module is loaded. -/
  | loaded (name : String)
  /-- Print the head of the search path. -/
  | searchHead
  /-- Delete the file. -/
  | unlink
  /-- Put an empty directory in the file's place. -/
  | toDirectory
  /-- Stop and give back a value. -/
  | giveBack (value : Value)
deriving Repr

/-- A name that a module offers. -/
inductive Member where
  | routine (actions : List Action)
  | value (v : Value)
deriving Repr

/-- A routine that refuses what the entry point of a tool is given, which is a list of texts. -/
def Member.refusing (message : String) : Member := .routine [.raise (.ofText .typeError message)]

/-- A module: what runs when it is loaded, and the names that it has from then on.  Names with a
meaning of their own to the runtime, such as `__file__`, `__path__` or `__getattr__`, are not among
these. -/
structure Script where
  onLoad : List Action := []
  members : List (String × Member) := []
deriving Repr

end Dissect
