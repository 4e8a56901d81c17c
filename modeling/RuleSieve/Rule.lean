/-
  Rules, and what makes a collection of rules usable.
-/
import RuleSieve.Expression.Basic
import RuleSieve.Finding
import RuleSieve.Text.Blank

namespace RuleSieve

/-- How the matches of a rule become findings. -/
inductive RuleMode where
  /-- Those that the expression keeps do. -/
  | search
  /-- All of them do. -/
  | taint
  deriving Repr, DecidableEq

namespace RuleMode

/-- The name of a mode. -/
def name : RuleMode → String
  | .search => "search"
  | .taint => "taint"

/-- The names of the modes. -/
def names : List (String × RuleMode) := [("search", .search), ("taint", .taint)]

end RuleMode

/-- A rule. -/
structure Rule where
  id : String
  /-- The message, with the names of metavariables in it. -/
  message : String
  severity : Severity
  mode : RuleMode
  expression : Option Expression
  /-- The fix, with the names of metavariables in it. -/
  fix : Option String
  fixRegex : Option FixRegex
  metadata : Dict Json
  languages : List String

namespace Rule

/-- A rule that keeps all matches. -/
def taint (id message : String) : Rule :=
  ⟨id, message, .usual, .taint, none, none, none, [], []⟩

/-- A rule that keeps the matches that an expression keeps. -/
def search (id : String) (expression : Expression) (message : String) : Rule :=
  { taint id message with mode := .search, expression := some expression }

/-- The expression of a rule that needs one. -/
def neededExpression (rule : Rule) : Except Fault Expression :=
  rule.expression.elim (.error (.schema (.noExpression rule.id))) .ok

/-- Does the rule run predicates? -/
def needsExec (rule : Rule) : Bool :=
  rule.mode != .taint && rule.expression.any (·.usesPredicates)

end Rule

/-! ## Usable rules -/

/-- Why a rule cannot be used. -/
inductive RuleProblem where
  | blankId
  | noExpression (id : String)
  | repeatedId (id : String)
  deriving Repr, DecidableEq

/-- The wording of a problem. -/
def RuleProblem.message : RuleProblem → String
  | .blankId => "rule id must not be empty"
  | .noExpression id => s!"search rule '{id}' needs an expression"
  | .repeatedId id => s!"duplicate rule id '{id}'"

/-- Can the rule be used? -/
def Rule.check (rule : Rule) : Except RuleProblem Unit :=
  if (Text.trim rule.id.toList).isEmpty then .error .blankId
  else if rule.mode = .search && rule.expression.isNone then .error (.noExpression rule.id)
  else .ok ()

/-- Rules that belong together, and the version of their format. -/
structure RuleFile where
  version : Option String
  rules : List Rule

namespace RuleFile

/-- Can the rules be used after rules with the given ids? -/
def checkFrom (seen : List String) : List Rule → Except RuleProblem Unit
  | [] => .ok ()
  | rule :: rules => do
    rule.check
    if seen.contains rule.id then .error (.repeatedId rule.id) else checkFrom (rule.id :: seen) rules

/-- Can all the rules be used, and do they have different ids? -/
def check (file : RuleFile) : Except RuleProblem Unit := checkFrom [] file.rules

/-- The rule of an id. -/
def find? (file : RuleFile) (id : String) : Option Rule := file.rules.find? (·.id == id)

end RuleFile

end RuleSieve
