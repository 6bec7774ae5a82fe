/-
# Values as documents

What JSON has no form for becomes its plain text, and a tuple becomes an array.  Two things have no
document: a dictionary with a key other than a text, a number, a truth value or nothing, and a whole
number of too many digits.  Of several such things in a value the first one counts.
-/
import Dissect.Value.Written

namespace Dissect.Value

/-- The failure of a key that no document can hold. -/
def keyFault (key : Value) : Fault :=
  .ofText .typeError ("keys must be str, int, float, bool or None, not " ++ key.kind)

/-- The text of a dictionary's key in a document. -/
def keyText : Value → Except Fault String
  | .str s => .ok s
  | .none => .ok "null"
  | .bool b => .ok (if b then "true" else "false")
  | .int n => written (.int n)
  | .real x => .ok (Json.realText x)
  | key => .error (keyFault key)

mutual

/-- The document of a value. -/
def document : Value → Except Fault Json
  | .none => .ok .null
  | .bool b => .ok (.bool b)
  | .int n => if isWritable (.int n) then .ok (.int n) else .error digitsFault
  | .real x => .ok (.real x)
  | .str s => .ok (.str s)
  | .list items => return .arr (← documents items)
  | .tuple items => return .arr (← documents items)
  | .dict entries => return .obj (← memberDocuments entries)
  | .bytes data => .ok (.str (Value.bytes data).text)
  | .buffer data => .ok (.str (Value.buffer data).text)
  | .view data => .ok (.str (Value.view data).text)
  | .path p => .ok (.str p.text)

/-- The documents of items. -/
def documents : List Value → Except Fault (List Json)
  | [] => .ok []
  | item :: rest => return (← document item) :: (← documents rest)

/-- The members that the entries of a dictionary become. -/
def memberDocuments : List (Value × Value) → Except Fault (List (String × Json))
  | [] => .ok []
  | (key, value) :: rest => do
    let name ← keyText key
    let item ← document value
    return (name, item) :: (← memberDocuments rest)

end

end Dissect.Value
