/-
  The stored form of settings.
-/
import RuleSieve.Config
import RuleSieve.Stored.Rule

namespace RuleSieve

open Document (text nat bool list dict record)

/-- Reads the settings of evaluation. -/
def EvaluationSettings.decode : Decoder EvaluationSettings :=
  record [["allow_arbitrary_code_execution"], ["collect_traces"]] fun fs =>
    EvaluationSettings.mk
      <$> fs.defaulted "allow_arbitrary_code_execution" bool false
      <*> fs.defaulted "collect_traces" bool false

/-- Reads the settings of the engine. -/
def EngineSettings.decode : Decoder EngineSettings :=
  record [["parallel"], ["jobs"]] fun fs =>
    EngineSettings.mk <$> fs.defaulted "parallel" bool true <*> fs.defaulted "jobs" (nat 64) 0

/-- Reads the settings of rules. -/
def RuleSettings.decode : Decoder RuleSettings :=
  record [["disabled"], ["severity"]] fun fs =>
    RuleSettings.mk
      <$> fs.defaulted "disabled" (list text) []
      <*> fs.defaulted "severity" (dict Severity.decode) []

/-- The record of settings. -/
def Config.toJson (config : Config) : Json :=
  .record
    [("evaluation", some <| .record
       [("allow_arbitrary_code_execution", some (.bool config.evaluation.allowExec)),
        ("collect_traces", some (.bool config.evaluation.collectTraces))]),
     ("engine", some <| .record
       [("parallel", some (.bool config.engine.parallel)), ("jobs", some (.nat config.engine.jobs))]),
     ("rules", some <| .record
       [("disabled", some (.texts config.rules.disabled)),
        ("severity", some (.dict (fun level => .text level.name) config.rules.severity))])]

/-- Reads settings; whatever is not there is as usual. -/
def Config.decode : Decoder Config :=
  record [["evaluation"], ["engine"], ["rules"]] fun fs =>
    Config.mk
      <$> fs.defaulted "evaluation" EvaluationSettings.decode {}
      <*> fs.defaulted "engine" EngineSettings.decode {}
      <*> fs.defaulted "rules" RuleSettings.decode {}

end RuleSieve
