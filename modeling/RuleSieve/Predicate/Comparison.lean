/-
  Comparing the values of predicates.

  Numbers of all types are compared as floats.
-/
import RuleSieve.Predicate.Arithmetic
import RuleSieve.Regex.Matches
import RuleSieve.Text.Find

namespace RuleSieve.Predicate

/-- Are the values equal?  Values that cannot be compared are not. -/
def equal : Value → Value → Bool
  | .str a, .str b => a == b
  | .map a, .map b => Value.sameEntries a b
  | left, right =>
    match left.float?, right.float? with
    | some a, some b => Binary64.same a b
    | _, _ => false

/-- The order of two values: texts character by character, numbers by size. -/
def order (operator : String) : Value → Value → Except Error Ordering
  | .str a, .str b => .ok (compare a b)
  | left, right =>
    match left.float?, right.float? with
    | some a, some b => (Binary64.compare? a b).elim (.error (.type .unordered)) .ok
    | _, _ => wrongOperands operator left right

/-- Does the first value occur in the second one, as a part of a text or a name of a map? -/
def within : Value → Value → Except Error Bool
  | .str part, .str text => .ok (Text.occursIn part.toList text.toList)
  | .str name, .map entries => .ok (Dict.has name entries)
  | left, right => wrongOperands "in" left right

/-- Compiles a pattern. -/
def compilePattern (pattern : List Char) : Except Error Regex :=
  (Regex.compile pattern).mapError (.invalidRegex (String.ofList pattern))

/-- Does a pattern match somewhere in a text? -/
def matching : Value → Value → Except Error Bool
  | .str text, .str pattern => do
    return (← compilePattern pattern.toList).isMatch text.toList
  | left, right => wrongOperands "=~" left right

/-- The outcome of a comparison. -/
def compareBy (op : CompareOp) (left right : Value) : Except Error Bool :=
  match op with
  | .equal => .ok (equal left right)
  | .notEqual => .ok (!equal left right)
  | .less => (order op.symbol left right).map (·.isLT)
  | .lessEqual => (order op.symbol left right).map (·.isLE)
  | .greater => (order op.symbol left right).map (·.isGT)
  | .greaterEqual => (order op.symbol left right).map (·.isGE)
  | .within => within left right
  | .notWithin => (within left right).map (!·)
  | .matching => matching left right

end RuleSieve.Predicate
