/-
# Arithmetic on values

Values that are not numbers refuse to be added to a whole number or to have one taken away, and the
refusal names their kind.  Whole numbers may have any size; a machine word holds only some of them.
-/
import Dissect.Fault.Basic

namespace Dissect.Value

/-- The number fits into a machine word. -/
def fitsWord (n : Int) : Bool := -(Nat.pow 2 63 : Int) ≤ n && n < Nat.pow 2 63

/-- The failure of adding a whole number to a value. -/
def sumFault (v : Value) : Fault :=
  let message :=
    match v with
    | .str _ | .list _ | .tuple _ =>
      "can only concatenate " ++ v.kind ++ " (not \"int\") to " ++ v.kind
    | .bytes _ | .buffer _ => "can't concat int to " ++ v.kind
    | v => "unsupported operand type(s) for +: '" ++ v.kind ++ "' and 'int'"
  .ofText .typeError message

/-- The failure of taking a whole number away from a value. -/
def differenceFault (v : Value) : Fault :=
  .ofText .typeError ("unsupported operand type(s) for -: '" ++ v.kind ++ "' and 'int'")

/-- The demand for a number that a whole number can be added to. -/
def demandSummand (v : Value) : Except Fault Unit :=
  if v.isNumber then .ok () else .error v.sumFault

/-- The demand for a number that a whole number can be taken from. -/
def demandMinuend (v : Value) : Except Fault Unit :=
  if v.isNumber then .ok () else .error v.differenceFault

/-- The number is the bound or more; never so for a NaN. -/
def reaches (bound : Int) : Value → Bool
  | .int n => bound ≤ n
  | .bool b => bound ≤ (if b then 1 else 0)
  | .real x => x != .nan && !x.ltInt bound
  | _ => false

end Dissect.Value
