/-
# Dynamic values

The values that cross the border of the library untyped: the arguments of a failure, the debug
information of a diagnostic, the arguments of an audit event, and what a tool's routine gives back.
Each has a kind name, a plain text (a text stands for itself) and an unambiguous quoted form.
-/
import Dissect.Double.Decimal
import Dissect.Path

namespace Dissect

open Text (Bytes)

/-- A dynamic value. -/
inductive Value where
  | none
  | bool (b : Bool)
  | int (n : Int)
  | real (x : Double)
  | str (s : String)
  | bytes (data : Bytes)
  | buffer (data : Bytes)
  | view (data : Bytes)
  | list (items : List Value)
  | tuple (items : List Value)
  | dict (entries : List (Value × Value))
  | path (p : Path)
deriving Repr, BEq, Inhabited

namespace Value

/-- The name of the kind of a value. -/
def kind : Value → String
  | .none => "NoneType"
  | .bool _ => "bool"
  | .int _ => "int"
  | .real _ => "float"
  | .str _ => "str"
  | .bytes _ => "bytes"
  | .buffer _ => "bytearray"
  | .view _ => "memoryview"
  | .list _ => "list"
  | .tuple _ => "tuple"
  | .dict _ => "dict"
  | .path _ => "PosixPath"

/-! ## 1. Texts -/

/-- Items between parentheses; a single one is followed by a comma. -/
def tupleText : List String → String
  | [item] => "(" ++ item ++ ",)"
  | items => "(" ++ Text.join ", " items ++ ")"

mutual

/-- The quoted form of a value. -/
def quoted : Value → String
  | .none => "None"
  | .bool b => if b then "True" else "False"
  | .int n => toString n
  | .real x => x.text
  | .str s => Text.quote s
  | .bytes data => Text.quoteBytes data
  | .buffer data => "bytearray(" ++ Text.quoteBuffer data ++ ")"
  | .view _ => "<memory>"
  | .list items => "[" ++ Text.join ", " (quotedItems items) ++ "]"
  | .tuple items => tupleText (quotedItems items)
  | .dict entries => "\x7b" ++ Text.join ", " (quotedEntries entries) ++ "\x7d"
  | .path p => "PosixPath(" ++ Text.quote p.text ++ ")"

/-- The quoted forms of items. -/
def quotedItems : List Value → List String
  | [] => []
  | item :: rest => quoted item :: quotedItems rest

/-- The quoted forms of entries. -/
def quotedEntries : List (Value × Value) → List String
  | [] => []
  | (key, value) :: rest => (quoted key ++ ": " ++ quoted value) :: quotedEntries rest

end

/-- The plain text of a value. -/
def text : Value → String
  | .str s => s
  | .path p => p.text
  | v => v.quoted

/-! ## 2. Numbers and truth -/

/-- The integer behind a whole number or a truth value. -/
def whole? : Value → Option Int
  | .int n => some n
  | .bool b => some (if b then 1 else 0)
  | _ => Option.none

/-- The value is a number; a truth value counts as one. -/
def isNumber : Value → Bool
  | .int _ => true
  | .bool _ => true
  | .real _ => true
  | _ => false

/-- The value equals zero as a number; truth values count as 0 and 1. -/
def isZero : Value → Bool
  | .int n => n == 0
  | .bool b => !b
  | .real x => x.isZero
  | _ => false

/-- A value that a condition takes as true: a number other than zero or anything not empty. -/
def truthy : Value → Bool
  | .none => false
  | .bool b => b
  | .int n => n != 0
  | .real x => !x.isZero
  | .str s => s != ""
  | .bytes data => !data.isEmpty
  | .buffer data => !data.isEmpty
  | .view data => !data.isEmpty
  | .list items => !items.isEmpty
  | .tuple items => !items.isEmpty
  | .dict entries => !entries.isEmpty
  | .path _ => true

/-- The two values are the same number, where truth values count as 0 and 1. -/
def sameNumber (a b : Value) : Bool :=
  match a.whole?, b.whole?, a, b with
  | some m, some n, _, _ => m == n
  | some m, Option.none, _, .real y => y.eqInt m
  | Option.none, some n, .real x, _ => x.eqInt n
  | Option.none, Option.none, .real x, .real y =>
    x != .nan && (x == y || x.isZero && y.isZero)
  | _, _, _, _ => false

/-! ## 3. Keys -/

/-- The bytes behind a value that can be written to a file. -/
def octets? : Value → Option Bytes
  | .bytes data => some data
  | .buffer data => some data
  | .view data => some data
  | _ => Option.none

mutual

/-- The part of a value that keeps it from being a key: something that can change. -/
def keyObstacle? : Value → Option Value
  | .list items => some (.list items)
  | .dict entries => some (.dict entries)
  | .buffer data => some (.buffer data)
  | .tuple items => itemObstacle? items
  | _ => Option.none

/-- The first such part among items. -/
def itemObstacle? : List Value → Option Value
  | [] => Option.none
  | item :: rest => (keyObstacle? item).or (itemObstacle? rest)

end

mutual

/-- The two values are one key of a dictionary: equal numbers, texts, bytes or paths, or tuples of
such.  A NaN is no other key, not even another NaN. -/
def sameKey : Value → Value → Bool
  | .tuple items, .tuple others => sameKeys items others
  | .str s, .str t => s == t
  | .path p, .path q => p == q
  | .none, .none => true
  | a, b => a.sameNumber b || (a.octets?.isSome && a.octets? == b.octets?)

/-- The two lists of values are the same keys. -/
def sameKeys : List Value → List Value → Bool
  | [], [] => true
  | item :: rest, other :: others => sameKey item other && sameKeys rest others
  | _, _ => false

end

/-- The entries of a dictionary after setting a key: a key that is present keeps its place and its
form. -/
def setEntry (key value : Value) : List (Value × Value) → List (Value × Value)
  | [] => [(key, value)]
  | (k, v) :: rest =>
    if k.sameKey key then (k, value) :: rest else (k, v) :: setEntry key value rest

/-- The dictionary that results from setting entries one after the other. -/
def ofEntries (entries : List (Value × Value)) : Value :=
  .dict (entries.foldl (fun done (key, value) => setEntry key value done) [])

/-! ## 4. Parts -/

/-- The values that a value is made of, one after the other; the bytes of bytes count as numbers. -/
def elements? : Value → Option (List Value)
  | .list items => some items
  | .tuple items => some items
  | .dict entries => some (entries.map (·.1))
  | .str s => some (s.toList.map fun c => .str (String.singleton c))
  | v => v.octets?.map (List.map fun b => .int b.toNat)

/-- The value has parts that are numbered from zero. -/
def isSequence : Value → Bool
  | .dict _ => false
  | v => v.elements?.isSome

/-! ## 5. Texts as values -/

/-- A value given as text, or nothing. -/
def ofText? (s : Option String) : Value :=
  match s with
  | Option.none => .none
  | some s => .str s

end Value

end Dissect
