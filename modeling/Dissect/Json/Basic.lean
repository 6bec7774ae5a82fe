/-
# JSON documents

A document as the error store keeps it.  Objects are ordered lists of members with distinct keys:
setting a key that is present changes its value in place, setting a new one appends it.  Integers
and floating-point numbers are different values even when they are equal as numbers.
-/
import Dissect.Assoc
import Dissect.Double.Decimal

namespace Dissect

/-- A JSON document. -/
inductive Json where
  | null
  | bool (b : Bool)
  | int (n : Int)
  | real (x : Double)
  | str (s : String)
  | arr (items : List Json)
  | obj (members : List (String × Json))
deriving Repr, BEq, Inhabited

namespace Json

/-- The members of an object after setting a key. -/
def setMember (key : String) (value : Json) (members : List (String × Json)) :
    List (String × Json) :=
  Assoc.set key value members

/-- The value under a key. -/
def member? (members : List (String × Json)) (key : String) : Option Json :=
  members.lookup key

/-- A text that may be missing. -/
def ofText? : Option String → Json
  | some s => .str s
  | none => .null

/-- The name of the kind of a document. -/
def kind : Json → String
  | .null => "NoneType"
  | .bool _ => "bool"
  | .int _ => "int"
  | .real _ => "float"
  | .str _ => "str"
  | .arr _ => "list"
  | .obj _ => "dict"

/-- The members of an object. -/
def members? : Json → Option (List (String × Json))
  | .obj members => some members
  | _ => none

/-- The integer that a number stands for when only whole numbers count; truth values count as 0
and 1. -/
def whole? : Json → Option Int
  | .int n => some n
  | .bool b => some (if b then 1 else 0)
  | _ => none

/-! ## 1. Laws -/

theorem lookup_setMember_self (key : String) (value : Json) (members : List (String × Json)) :
    (setMember key value members).lookup key = some value :=
  Assoc.lookup_set_self key value members

theorem lookup_setMember_of_ne {key other : String} (h : other ≠ key) (value : Json)
    (members : List (String × Json)) :
    (setMember key value members).lookup other = members.lookup other :=
  Assoc.lookup_set_of_ne h value members

end Json

end Dissect
