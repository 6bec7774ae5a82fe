/-
# Loaded modules

The table of the modules that are loaded, under their full names, and the search path on which more
are found.  A module has a number of its own, so two copies of one file are two modules.
-/
import Dissect.Tool.Script

namespace Dissect

/-- A loaded module: the file it came from, where its own modules are found if it is a package, the
names it offers, and how often it has counted. -/
structure Module where
  serial : Nat
  origin : Option String := none
  packagePath : Option (List String) := none
  members : List (String × Member) := []
  count : Nat := 0
deriving Repr

namespace Module

/-- What every module has from the class of modules and can be called.  None of it makes anything of
a list of texts, which the entry point of a tool is given; a comparison with one leaves open what
the answer is. -/
def inherited : List (String × Member) :=
  [("__class__", .refusing "module() argument 'name' must be str, not list"),
   ("__delattr__", .refusing "attribute name must be string, not 'list'"),
   ("__dir__", .refusing "__dir__() takes no arguments (1 given)"),
   ("__eq__", .routine []),
   ("__format__", .refusing "__format__() argument must be str, not list"),
   ("__ge__", .routine []),
   ("__getattribute__", .refusing "attribute name must be string, not 'list'"),
   ("__getstate__", .refusing "__getstate__() takes no arguments (1 given)"),
   ("__gt__", .routine []),
   ("__hash__", .refusing "expected 0 arguments, got 1"),
   ("__init__", .refusing "module() argument 'name' must be str, not list"),
   ("__init_subclass__", .refusing "module.__init_subclass__() takes no arguments (1 given)"),
   ("__le__", .routine []),
   ("__lt__", .routine []),
   ("__ne__", .routine []),
   ("__new__", .refusing "module.__new__(X): X is not a type object (list)"),
   ("__reduce__", .refusing "__reduce__() takes no arguments (1 given)"),
   ("__reduce_ex__", .refusing "'list' object cannot be interpreted as an integer"),
   ("__repr__", .refusing "expected 0 arguments, got 1"),
   ("__setattr__", .refusing " expected 2 arguments, got 1"),
   ("__sizeof__", .refusing "__sizeof__() takes no arguments (1 given)"),
   ("__str__", .refusing "expected 0 arguments, got 1"),
   ("__subclasshook__", .routine [])]

/-- What a module has under a name.  Its class comes before all that it offers itself, and that
before the rest of what it has from its class. -/
def member? (m : Module) (name : String) : Option Member :=
  if name = "__class__" then inherited.lookup name
  else (m.members.lookup name).or (inherited.lookup name)

end Module

/-- A module that is part of the runtime itself: the file that it passes for, if it passes for one,
and the names it offers. -/
structure Resident where
  origin : Option String := none
  members : List (String × Member) := []
deriving Repr

/-- The loaded modules, the search path, and the modules that are part of the runtime itself, under
their names. -/
structure ModuleTable where
  loaded : List (String × Module) := []
  searchPath : List String := []
  resident : List (String × Resident) := []
  nextSerial : Nat := 0
deriving Repr

namespace ModuleTable

/-- The module of a name. -/
def get? (t : ModuleTable) (name : String) : Option Module := t.loaded.lookup name

/-- A module of that name is loaded. -/
def contains (t : ModuleTable) (name : String) : Bool := (t.get? name).isSome

/-- The entries without a name. -/
def without (name : String) (entries : List (String × Module)) : List (String × Module) :=
  entries.filter fun (n, _) => n != name

/-- Enters a module under a name, in place of any other. -/
def insert (t : ModuleTable) (name : String) (m : Module) : ModuleTable :=
  { t with loaded := without name t.loaded ++ [(name, m)] }

/-- Removes a name. -/
def erase (t : ModuleTable) (name : String) : ModuleTable :=
  { t with loaded := without name t.loaded }

/-- Enters a new module, whose number is still free, under a name. -/
def add (t : ModuleTable) (name : String) (m : Module) : ModuleTable :=
  let t := t.insert name { m with serial := t.nextSerial }
  { t with nextSerial := t.nextSerial + 1 }

/-- Counts one call of a module: the table and the new count. -/
def tally (t : ModuleTable) (name : String) : ModuleTable × Nat :=
  match t.get? name with
  | none => (t, 1)
  | some m =>
    let m := { m with count := m.count + 1 }
    ({ t with loaded := t.loaded.map fun (n, old) => if n = name then (n, m) else (n, old) },
      m.count)

/-- A table in which the names of the host's own modules are loaded. -/
def ofHost (names : List String) (searchPath : List String) : ModuleTable :=
  names.foldl (fun t name => t.add name { serial := 0 }) { searchPath }

end ModuleTable

end Dissect
