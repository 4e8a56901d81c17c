/-
  The terms of predicates.
-/
import RuleSieve.Predicate.Value

namespace RuleSieve.Predicate

/-- The arithmetic operators. -/
inductive ArithOp where
  | add
  | sub
  | mul
  | div
  | floorDiv
  | mod
  deriving Repr, DecidableEq

/-- How an arithmetic operator is written. -/
def ArithOp.symbol : ArithOp → String
  | .add => "+"
  | .sub => "-"
  | .mul => "*"
  | .div => "/"
  | .floorDiv => "//"
  | .mod => "%"

/-- The comparison operators. -/
inductive CompareOp where
  | equal
  | notEqual
  | less
  | lessEqual
  | greater
  | greaterEqual
  | within
  | notWithin
  | matching
  deriving Repr, DecidableEq

/-- How a comparison operator is written. -/
def CompareOp.symbol : CompareOp → String
  | .equal => "=="
  | .notEqual => "!="
  | .less => "<"
  | .lessEqual => "<="
  | .greater => ">"
  | .greaterEqual => ">="
  | .within => "in"
  | .notWithin => "not in"
  | .matching => "=~"

/-- A term. -/
inductive Term where
  | literal (value : Value)
  | name (name : String)
  | neg (operand : Term)
  | not (operand : Term)
  | and (left right : Term)
  | or (left right : Term)
  | arith (op : ArithOp) (left right : Term)
  /-- A chain of comparisons; each operand is compared with the one before it. -/
  | compare (first : Term) (links : List (CompareOp × Term))
  | index (target index : Term)
  | call (function : String) (args : List Term)
  | method (receiver : Term) (name : String) (args : List Term)
  deriving Repr

end RuleSieve.Predicate
