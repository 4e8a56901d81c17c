/-
  How serious a finding is.
-/
import RuleSieve.Text.Case

namespace RuleSieve

/-- Levels of severity, from the lowest on. -/
inductive Severity where
  | info
  | warning
  | error
  deriving Repr, DecidableEq

namespace Severity

/-- The severity of a rule that names none. -/
def usual : Severity := .warning

/-- The name of a severity. -/
def name : Severity → String
  | .info => "info"
  | .warning => "warning"
  | .error => "error"

/-- The names by which files store severities. -/
def storedNames : List (String × Severity) :=
  [("info", .info), ("INFO", .info), ("warning", .warning), ("WARNING", .warning),
   ("error", .error), ("ERROR", .error)]

/-- Every name of a severity, in lower case. -/
def spokenNames : List (String × Severity) :=
  [("info", .info), ("hint", .info), ("note", .info), ("warning", .warning), ("warn", .warning),
   ("error", .error), ("err", .error)]

/-- The severity of a name in any case. -/
def ofName? (name : String) : Option Severity := spokenNames.lookup (Text.lower name)

/-- Names are read back. -/
theorem lookup_name (s : Severity) : storedNames.lookup s.name = some s := by
  cases s <;> decide

end Severity

end RuleSieve
