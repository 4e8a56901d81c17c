/-
  The stored form of units, and of what reports are made of.
-/
import RuleSieve.Engine
import RuleSieve.Stored.Match
import RuleSieve.Stored.Rule

namespace RuleSieve

open Document (text list dict choice record)

/-! ## Units -/

/-- The record of a unit. -/
def MatchUnit.toJson (unit : MatchUnit) : Json :=
  .record
    [("rule_id", some (.text unit.ruleId)), ("path", unit.path.map .text),
     ("matches", some (.list (unit.found.map Match.toJson)))]

/-- Reads a unit. -/
def MatchUnit.decode : Decoder MatchUnit :=
  record [["rule_id"], ["path"], ["matches"]] fun fs =>
    MatchUnit.mk
      <$> fs.required "rule_id" text
      <*> fs.optional "path" text
      <*> fs.defaulted "matches" (list Match.decode) []

/-! ## Traces -/

/-- The table of what names are bound to. -/
def bindingsToJson (d : Dict (List Binding)) : Json :=
  .dict (fun bindings => .list (bindings.map Binding.toJson)) d

/-- The record of a step. -/
def Step.toJson (step : Step) : Json :=
  .record
    [("filter", some (.text step.filter)), ("pattern_id", step.patternId.map .text),
     ("ranges", some (Span.listToJson step.spans)),
     ("metavar_ranges", step.bindings.map bindingsToJson)]

/-- Reads a step. -/
def Step.decode : Decoder Step :=
  record [["filter"], ["pattern_id"], ["ranges"], ["metavar_ranges"]] fun fs =>
    Step.mk
      <$> fs.required "filter" Document.text
      <*> fs.optional "pattern_id" Document.text
      <*> fs.required "ranges" (list Span.decode)
      <*> fs.optional "metavar_ranges" (dict (list Binding.decode))

/-- The record of a trace. -/
def Trace.toJson (trace : Trace) : Json :=
  .record
    [("initial", some (.dict Span.listToJson trace.initial)),
     ("steps", some (.list (trace.steps.map Step.toJson)))]

/-- Reads a trace. -/
def Trace.decode : Decoder Trace :=
  record [["initial"], ["steps"]] fun fs =>
    Trace.mk
      <$> fs.required "initial" (dict (list Span.decode))
      <*> fs.required "steps" (list Step.decode)

/-- The record of the trace of a unit. -/
def UnitTrace.toJson (t : UnitTrace) : Json :=
  .record
    [("rule_id", some (.text t.ruleId)), ("path", t.path.map .text), ("trace", some t.trace.toJson)]

/-- Reads the trace of a unit. -/
def UnitTrace.decode : Decoder UnitTrace :=
  record [["rule_id"], ["path"], ["trace"]] fun fs =>
    UnitTrace.mk
      <$> fs.required "rule_id" text
      <*> fs.optional "path" text
      <*> fs.required "trace" Trace.decode

/-! ## Findings and failures -/

/-- A table that is left out if it is empty. -/
def unlessEmpty {α : Type} (encode : α → Json) (d : Dict α) : Option Json :=
  if d.isEmpty then none else some (.dict encode d)

/-- The record of a finding. -/
def Finding.toJson (f : Finding) : Json :=
  .record
    [("rule_id", some (.text f.ruleId)), ("path", f.path.map .text), ("range", some f.span.toJson),
     ("message", some (.text f.message)), ("metadata", unlessEmpty id f.metadata),
     ("severity", some (.text f.severity.name)), ("fix", f.fix.map .text),
     ("fix_regex", f.fixRegex.map FixRegex.toJson),
     ("metavariables", unlessEmpty Binding.toJson f.bindings)]

/-- Reads a finding. -/
def Finding.decode : Decoder Finding :=
  record
    [["rule_id"], ["path"], ["range"], ["message"], ["metadata"], ["severity"], ["fix"], ["fix_regex"],
     ["metavariables"]] fun fs =>
    Finding.mk
      <$> fs.required "rule_id" text
      <*> fs.optional "path" text
      <*> fs.required "range" Span.decode
      <*> fs.required "message" text
      <*> fs.defaulted "metadata" (dict Document.value) []
      <*> fs.required "severity" Severity.decode
      <*> fs.optional "fix" text
      <*> fs.optional "fix_regex" FixRegex.decode
      <*> fs.defaulted "metavariables" (dict Binding.decode) []

/-- The record of a failure. -/
def Failure.toJson (f : Failure) : Json :=
  .record
    [("rule_id", some (.text f.ruleId)), ("path", f.path.map .text), ("kind", some (.text f.kind.name)),
     ("message", some (.text f.message))]

/-- Reads a failure. -/
def Failure.decode : Decoder Failure :=
  record [["rule_id"], ["path"], ["kind"], ["message"]] fun fs =>
    Failure.mk
      <$> fs.required "rule_id" text
      <*> fs.optional "path" text
      <*> fs.required "kind" (choice FaultKind.names)
      <*> fs.required "message" text

end RuleSieve
