/-
# Numbers in documents

The order of the numbers in a document, whole ones and others together, exactly as the numbers they
stand for; and documents as values, so that they have a text.
-/
import Dissect.Json.Basic
import Dissect.Value

namespace Dissect.Json

/-- The document is a number; a truth value counts as one. -/
def isNumber : Json → Bool
  | .int _ => true
  | .bool _ => true
  | .real _ => true
  | _ => false

/-- The document is a number that is less than, equal to or greater than each other one. -/
def isOrdered : Json → Bool
  | .real .nan => false
  | document => document.isNumber

/-- The first number is less than the second. -/
def numberLt (a b : Json) : Bool :=
  match a.whole?, b.whole?, a, b with
  | some m, some n, _, _ => m < n
  | some m, none, _, .real y => y.intLt m
  | none, some n, .real x, _ => x.ltInt n
  | none, none, .real x, .real y => x.lt y
  | _, _, _, _ => false

mutual

/-- The document as a value. -/
def value : Json → Value
  | .null => .none
  | .bool b => .bool b
  | .int n => .int n
  | .real x => .real x
  | .str s => .str s
  | .arr items => .list (itemValues items)
  | .obj members => .dict (memberValues members)

/-- The items of an array as values. -/
def itemValues : List Json → List Value
  | [] => []
  | item :: rest => value item :: itemValues rest

/-- The members of an object as entries. -/
def memberValues : List (String × Json) → List (Value × Value)
  | [] => []
  | (key, item) :: rest => (.str key, value item) :: memberValues rest

end

/-- The text of the value of a document. -/
def plainText (document : Json) : String := document.value.text

end Dissect.Json
