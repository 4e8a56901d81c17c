/-
  The operators of rule expressions and their two names.
-/
namespace RuleSieve

/-- Operators that judge a span on their own. -/
inductive LeafOperator where
  | pattern
  | patternNot
  | patternInside
  | patternNotInside
  | patternRegex
  | patternNotRegex
  | metavariableRegex
  | metavariableComparison
  | patternWhere
  deriving Repr, DecidableEq

namespace LeafOperator

/-- Every operator. -/
def all : List LeafOperator :=
  [.pattern, .patternNot, .patternInside, .patternNotInside, .patternRegex, .patternNotRegex,
   .metavariableRegex, .metavariableComparison, .patternWhere]

/-- The name by which an expression stores the operator. -/
def tag : LeafOperator → String
  | .pattern => "AND"
  | .patternNot => "AND_NOT"
  | .patternInside => "AND_INSIDE"
  | .patternNotInside => "AND_NOT_INSIDE"
  | .patternRegex => "REGEX"
  | .patternNotRegex => "NOT_REGEX"
  | .metavariableRegex => "METAVARIABLE_REGEX"
  | .metavariableComparison => "METAVARIABLE_COMPARISON"
  | .patternWhere => "WHERE_PREDICATE"

/-- The name by which rules write the operator. -/
def displayName : LeafOperator → String
  | .pattern => "pattern"
  | .patternNot => "pattern-not"
  | .patternInside => "pattern-inside"
  | .patternNotInside => "pattern-not-inside"
  | .patternRegex => "pattern-regex"
  | .patternNotRegex => "pattern-not-regex"
  | .metavariableRegex => "metavariable-regex"
  | .metavariableComparison => "metavariable-comparison"
  | .patternWhere => "pattern-where"

end LeafOperator

/-- Operators that combine the judgements of other expressions. -/
inductive GroupOperator where
  /-- At least one of the parts keeps the span. -/
  | either
  /-- All parts keep the span. -/
  | all
  deriving Repr, DecidableEq

namespace GroupOperator

/-- The name by which an expression stores the operator. -/
def tag : GroupOperator → String
  | .either => "AND_EITHER"
  | .all => "AND_ALL"

/-- The name by which rules write the operator. -/
def displayName : GroupOperator → String
  | .either => "pattern-either"
  | .all => "patterns"

end GroupOperator

/-- Any operator. -/
inductive Operator where
  | leaf (op : LeafOperator)
  | group (op : GroupOperator)
  deriving Repr, DecidableEq

namespace Operator

/-- The name by which an expression stores the operator. -/
def tag : Operator → String
  | .leaf op => op.tag
  | .group op => op.tag

/-- The name by which rules write the operator. -/
def displayName : Operator → String
  | .leaf op => op.displayName
  | .group op => op.displayName

/-- Every operator. -/
def all : List Operator := LeafOperator.all.map .leaf ++ [.group .either, .group .all]

/-- The operator of a name, which may be of either kind. -/
def ofName? (name : String) : Option Operator :=
  all.find? fun op => op.tag == name || op.displayName == name

end Operator

end RuleSieve
