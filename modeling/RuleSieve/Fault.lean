/-
  What can go wrong with an expression, and how it is said.
-/
import RuleSieve.Expression.Operator
import RuleSieve.Predicate.Error
import RuleSieve.Predicate.Value

namespace RuleSieve

/-! ## Causes -/

/-- Why an expression or one of its operands has no meaning. -/
inductive SchemaProblem where
  | noParts (op : GroupOperator)
  | leafWithParts (op : LeafOperator)
  | groupWithOperand (op : GroupOperator)
  | wantsText (op : LeafOperator)
  | wantsRecord (op : LeafOperator)
  | wantsOperand (op : LeafOperator)
  | wantsRegex (metavariable : String)
  | wantsComparison (metavariable : String)
  | notBoolean (source : String) (value : Predicate.Value)
  | noExpression (ruleId : String)
  deriving Repr

/-- What went wrong while an expression was built or evaluated. -/
inductive Fault where
  | unknownOperator (name : String)
  | schema (problem : SchemaProblem)
  | invalidRegex (pattern : String) (problem : Regex.PatternError)
  | invalidExpression (source : String) (problem : Predicate.Error)
  /-- A predicate would have to run, which was not allowed. -/
  | executionNotAllowed
  | notBound (name : String)
  | fixNotBound (name : String)
  deriving Repr

/-- The kinds of fault that a caller can tell apart. -/
inductive FaultKind where
  | schemaViolation
  | unknownOperator
  | executionNotAllowed
  | bindingMiss
  | fixBindingMiss
  deriving Repr, DecidableEq

/-! ## Wording -/

/-- The name of a kind. -/
def FaultKind.name : FaultKind → String
  | .schemaViolation => "schema-violation"
  | .unknownOperator => "unknown-operator"
  | .executionNotAllowed => "execution-not-allowed"
  | .bindingMiss => "binding-miss"
  | .fixBindingMiss => "fix-binding-miss"

/-- Every kind under its name. -/
def FaultKind.names : List (String × FaultKind) :=
  [FaultKind.schemaViolation, .unknownOperator, .executionNotAllowed, .bindingMiss, .fixBindingMiss].map
    fun kind => (kind.name, kind)

/-- The wording of a problem with the shape of an expression. -/
def SchemaProblem.message : SchemaProblem → String
  | .noParts op => s!"{op.displayName} must have at least one child"
  | .leafWithParts op => s!"leaf operator {op.displayName} must not have children"
  | .groupWithOperand op =>
    s!"composite operator {op.displayName} must not carry a pattern id or operand"
  | .wantsText op => s!"{op.displayName} expects a string operand, got a structured one"
  | .wantsRecord op => s!"{op.displayName} expects a metavariable operand, got a string"
  | .wantsOperand op => s!"{op.displayName} requires an operand"
  | .wantsRegex name => s!"metavariable-regex on '{name}' requires a regex"
  | .wantsComparison name => s!"metavariable-comparison on '{name}' requires a comparison"
  | .notBoolean source value =>
    s!"where expression '{source}' needs boolean output but got {value.text}"
  | .noExpression ruleId => s!"rule '{ruleId}' has no expression"

namespace Fault

/-- The wording of a fault. -/
def message : Fault → String
  | .unknownOperator name => s!"unknown operator '{name}'"
  | .schema problem => s!"schema violation: {problem.message}"
  | .invalidRegex pattern problem =>
    s!"invalid regex '{pattern}'{Predicate.patternRemark problem}"
  | .invalidExpression source problem => s!"invalid expression '{source}': {problem.message}"
  | .executionNotAllowed =>
    "at least one rule needs to execute arbitrary code; this is dangerous! "
      ++ "if you want to continue, enable the flag: allow_arbitrary_code_execution"
  | .notBound name => s!"metavariable '{name}' is not bound"
  | .fixNotBound name =>
    s!"fix template references metavariable '{name}' which is not bound by the match"

/-- The kind of a fault. -/
def kind : Fault → FaultKind
  | .unknownOperator _ => .unknownOperator
  | .schema _ | .invalidRegex .. | .invalidExpression .. => .schemaViolation
  | .executionNotAllowed => .executionNotAllowed
  | .notBound _ => .bindingMiss
  | .fixNotBound _ => .fixBindingMiss

end Fault

/-! ## Exit codes -/

/-- The exit code of a program that ends because of a fault of this kind. -/
def FaultKind.exitCode : FaultKind → Nat
  | .executionNotAllowed => 6
  | _ => 2

/-- The exit code of a program that ends because of the fault. -/
def Fault.exitCode (fault : Fault) : Nat := fault.kind.exitCode

/-- A fault, with the rule it arose from. -/
structure RuleFault where
  ruleId : String
  fault : Fault
  deriving Repr

/-- The wording of a fault of a rule. -/
def RuleFault.message (f : RuleFault) : String := s!"rule '{f.ruleId}': {f.fault.message}"

end RuleSieve
