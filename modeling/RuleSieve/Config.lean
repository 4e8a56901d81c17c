/-
  Settings.
-/
import RuleSieve.Dict
import RuleSieve.Severity

namespace RuleSieve

/-- Settings of evaluation. -/
structure EvaluationSettings where
  /-- May predicates run? -/
  allowExec : Bool := false
  collectTraces : Bool := false
  deriving Repr, DecidableEq

/-- Settings of the engine. -/
structure EngineSettings where
  parallel : Bool := true
  /-- The number of jobs; zero leaves it to the machine. -/
  jobs : Nat := 0
  deriving Repr, DecidableEq

/-- Settings of single rules. -/
structure RuleSettings where
  disabled : List String := []
  /-- Severities that take the place of those of the rules. -/
  severity : Dict Severity := []
  deriving Repr, DecidableEq

/-- All settings. -/
structure Config where
  evaluation : EvaluationSettings := {}
  engine : EngineSettings := {}
  rules : RuleSettings := {}
  deriving Repr, DecidableEq

namespace Config

/-- The settings with those of another one on top. -/
def merge (config other : Config) : Config where
  evaluation :=
    { allowExec := config.evaluation.allowExec || other.evaluation.allowExec
      collectTraces := config.evaluation.collectTraces || other.evaluation.collectTraces }
  engine :=
    { parallel := other.engine.parallel
      jobs := if other.engine.jobs ≠ 0 then other.engine.jobs else config.engine.jobs }
  rules :=
    { disabled := config.rules.disabled ++ other.rules.disabled
      severity := other.rules.severity.foldl
        (fun severity (id, level) => severity.insert id level) config.rules.severity }

/-- Settings that a caller gives on top of those of a file. -/
structure Overrides where
  allowExec : Option Bool := none
  collectTraces : Option Bool := none
  jobs : Option Nat := none
  disabled : Option (List String) := none

/-- The settings with those of a caller on top. -/
def override (config : Config) (o : Overrides) : Config where
  evaluation :=
    { allowExec := o.allowExec.getD config.evaluation.allowExec
      collectTraces := o.collectTraces.getD config.evaluation.collectTraces }
  engine := { config.engine with jobs := o.jobs.getD config.engine.jobs }
  rules := { config.rules with disabled := config.rules.disabled ++ o.disabled.getD [] }

/-- Is the rule of an id used? -/
def enables (config : Config) (id : String) : Bool := !config.rules.disabled.contains id

/-- The severity that takes the place of that of the rule of an id. -/
def severity? (config : Config) (id : String) : Option Severity := config.rules.severity.find? id

end Config

end RuleSieve
