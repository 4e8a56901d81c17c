/-
  Arithmetic on the values of predicates.

  Integers have 64 bits; a result that does not fit is an error and never wraps around.  As soon as
  one operand is a float, both are taken as floats.
-/
import RuleSieve.Predicate.Error
import RuleSieve.Predicate.Term

namespace RuleSieve.Predicate

/-! ## Integers -/

/-- The result of an operation that does not fit. -/
def overflow {α : Type} : Except Error α := .error (.type .overflow)

/-- An integer, if it fits. -/
def fit (n : Int) : Except Error Int64 :=
  (Word.ofInt? n).elim overflow .ok

/-- The truncated quotient and remainder do not exist for these operands. -/
def quotientOverflows (a b : Int64) : Bool := a == Int64.minValue && b == -1

/-- The quotient rounded down. -/
def floorDiv (a b : Int64) : Except Error Int64 :=
  if b = 0 then .error .divisionByZero
  else if quotientOverflows a b then overflow
  else if a % b ≠ 0 ∧ (a < 0) ≠ (b < 0) then .ok (a / b - 1)
  else .ok (a / b)

/-- The remainder with the sign of the divisor. -/
def floorMod (a b : Int64) : Except Error Int64 :=
  if b = 0 then .error .divisionByZero
  else if quotientOverflows a b then overflow
  else if a % b ≠ 0 ∧ (a % b < 0) ≠ (b < 0) then .ok (a % b + b)
  else .ok (a % b)

/-- The operation on two integers. -/
def intArith (op : ArithOp) (a b : Int64) : Except Error Value :=
  match op with
  | .add => (fit (a.toInt + b.toInt)).map .int
  | .sub => (fit (a.toInt - b.toInt)).map .int
  | .mul => (fit (a.toInt * b.toInt)).map .int
  | .div =>
    if b = 0 then .error .divisionByZero
    else .ok (.float (Binary64.ofInt a.toInt / Binary64.ofInt b.toInt))
  | .floorDiv => (floorDiv a b).map .int
  | .mod => (floorMod a b).map .int

/-! ## Floats -/

/-- The operation on two floats. -/
def floatArith (op : ArithOp) (a b : Float) : Except Error Value :=
  let divided (x : Float) : Except Error Value :=
    if Binary64.place? b = some 0 then .error .divisionByZero else .ok (.float x)
  match op with
  | .add => .ok (.float (a + b))
  | .sub => .ok (.float (a - b))
  | .mul => .ok (.float (a * b))
  | .div => divided (a / b)
  | .floorDiv => divided (a / b).floor
  | .mod => divided (a - b * (a / b).floor)

/-! ## Values -/

/-- Two values that an operator does not apply to. -/
def wrongOperands {α : Type} (operator : String) (left right : Value) : Except Error α :=
  .error (.type (.operands operator left.typeName right.typeName))

/-- The operation on two values; texts can be added. -/
def arith (op : ArithOp) (left right : Value) : Except Error Value :=
  match op, left, right with
  | .add, .str a, .str b => .ok (.str (a ++ b))
  | op, left, right =>
    match left.int?, right.int? with
    | some a, some b => intArith op a b
    | _, _ =>
      match left.float?, right.float? with
      | some a, some b => floatArith op a b
      | _, _ => wrongOperands op.symbol left right

/-- The value with its sign changed. -/
def negate : Value → Except Error Value
  | .int n => (fit (-n.toInt)).map .int
  | .float x => .ok (.float (-x))
  | .bool b => .ok (.int (if b then -1 else 0))
  | other => .error (.type (.notNegatable other.typeName))

end RuleSieve.Predicate
