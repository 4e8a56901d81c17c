/-
  Evaluating many units.

  A unit holds the matches of one rule in one file.  Units do not depend on each other: one that fails
  is reported and the others go on.  How long a unit takes is known only to whoever runs it, so all
  times are zero here.

  The units may also be evaluated at once by a pool of threads, as many as the settings ask for or the
  machine has, and one after the other if there is no such pool.  None of that is modelled: neither the
  pool, nor the number of threads, nor the warning that there is none.  What is relied on is that the
  reports of the units come back in the order of the units, as the pool promises, and are then joined
  from the left.
-/
import RuleSieve.Config
import RuleSieve.Report

namespace RuleSieve

/-- The matches of one rule in one file. -/
structure MatchUnit where
  ruleId : String
  path : Option String
  found : List Match
  deriving Repr, DecidableEq

namespace Engine

/-- The rule of an id; of several the last one. -/
def ruleFor? (rules : List Rule) (id : String) : Option Rule := rules.reverse.find? (·.id == id)

/-- The report of a unit whose rule is not known. -/
def unknownRule (unit : MatchUnit) : Report :=
  { failures := [⟨unit.ruleId, unit.path, .schemaViolation, s!"unknown rule id '{unit.ruleId}'"⟩]
    processed := 1 }

/-- The rule with the severity that the settings give it. -/
def withSeverity (config : Config) (rule : Rule) : Rule :=
  { rule with severity := (config.severity? rule.id).getD rule.severity }

/-- The report of a unit and its rule. -/
def evaluateRule (config : Config) (rule : Rule) (unit : MatchUnit) : Report :=
  let timing (findings : Nat) : Dict Timing := [(rule.id, ⟨rule.id, 0, 1, findings⟩)]
  match (withSeverity config rule).evaluate unit.found config.evaluation.allowExec with
  | .ok (findings, trace) =>
    { findings := findings.map fun f => { f with path := unit.path }
      traces := if config.evaluation.collectTraces then [⟨rule.id, unit.path, trace⟩] else []
      processed := 1
      timings := timing findings.length }
  | .error fault =>
    { failures := [⟨fault.ruleId, unit.path, fault.fault.kind, fault.message⟩]
      processed := 1
      timings := timing 0 }

/-- The report of a unit. -/
def evaluateUnit (config : Config) (rules : List Rule) (unit : MatchUnit) : Report :=
  match ruleFor? rules unit.ruleId with
  | none => unknownRule unit
  | some rule =>
    if config.enables rule.id then evaluateRule config rule unit else { skipped := 1 }

/-- The report of several units.  Their own reports are joined in the order of the units, whether the
    settings let them be evaluated at once or not. -/
def evaluateAll (config : Config) (rules : List Rule) (units : List MatchUnit) : Report :=
  (units.map (evaluateUnit config rules)).foldl Report.merge .empty

end Engine

end RuleSieve
