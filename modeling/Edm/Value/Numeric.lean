import Edm.Value

/-!
This module contains checked arithmetic on numbers of any family.
-/

namespace Edm

inductive ArithmeticOp where
  | add
  | sub
  | mul
  | div
  | mod
deriving DecidableEq, Repr

namespace Numeric

def int64? (n : Int) : Option Int64 :=
  if -9223372036854775808 ≤ n ∧ n ≤ 9223372036854775807 then some (.ofInt n) else none

def applyInteger? (op : ArithmeticOp) (a b : Int) : Option Int64 :=
  match op with
  | .add => int64? (a + b)
  | .sub => int64? (a - b)
  | .mul => int64? (a * b)
  | .div => if b = 0 then none else int64? (a.tdiv b)
  | .mod => if b = 0 then none else (int64? (a.tdiv b)).bind fun _ => int64? (a.tmod b)

def applyDecimal? : ArithmeticOp → Decimal → Decimal → Option Decimal
  | .add => Decimal.add?
  | .sub => Decimal.sub?
  | .mul => Decimal.mul?
  | .div => Decimal.div?
  | .mod => Decimal.rem?

def applyFloat (op : ArithmeticOp) (x y : Float) : Float :=
  match op with
  | .add => x + y
  | .sub => x - y
  | .mul => x * y
  | .div => x / y
  | .mod => Ieee.rem x y

/-- Compute in the common family. Overflow and division by zero fail, except for floats. -/
def compute? (op : ArithmeticOp) (a b : Numeric) : Option Numeric :=
  match promote a b with
  | (.integer m, .integer n) => (applyInteger? op m.toInt n.toInt).map .integer
  | (.decimal c, .decimal d) => (applyDecimal? op c d).map .decimal
  | (a, b) => some (.float (applyFloat op a.toFloat b.toFloat))

def neg? : Numeric → Option Numeric
  | .integer n => (int64? (-n.toInt)).map .integer
  | .decimal d => some (.decimal d.neg)
  | .float x => some (.float (-x))

/-- The value of an integer: of 32 bits if it fits and `narrow` is set. -/
def integerValue (narrow : Bool) (n : Int64) : Value :=
  if narrow ∧ -2147483648 ≤ n.toInt ∧ n.toInt ≤ 2147483647 then .int32 (.ofInt n.toInt)
  else .int64 n

def toValue (narrow : Bool) : Numeric → Value
  | .integer n => integerValue narrow n
  | .decimal d => .decimal d
  | .float x => .double x

end Numeric

end Edm
