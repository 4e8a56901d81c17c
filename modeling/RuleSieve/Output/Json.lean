/-
  Reports as data for other programs.
-/
import RuleSieve.Json.Printer
import RuleSieve.Stored.Report

namespace RuleSieve

/-- The record of a finding in a report. -/
def Finding.toSummary (f : Finding) : Json :=
  .record
    [("rule_id", some (.text f.ruleId)), ("severity", some (.text f.severity.name)),
     ("message", some (.text f.message)), ("path", f.path.map .text),
     ("start", some (.nat f.span.start)), ("end", some (.nat f.span.stop)), ("fix", f.fix.map .text),
     ("fix_regex", f.fixRegex.map FixRegex.toJson),
     ("metadata", unlessEmpty (fun value => value) f.metadata),
     ("metavariables", unlessEmpty Binding.toJson f.bindings)]

namespace Report

/-- The numbers of a report. -/
def summary (report : Report) : Json :=
  .record
    [("units_processed", some (.nat report.processed)), ("units_skipped", some (.nat report.skipped)),
     ("finding_count", some (.nat report.findings.length)),
     ("failure_count", some (.nat report.failures.length)),
     ("exit_code", some (.nat report.exitCode)),
     ("duration_ms", some (.nat (report.duration / tenTo 6)))]

/-- The record of a report. -/
def toJson (report : Report) : Json :=
  .record
    [("findings", some (.list (report.findings.map Finding.toSummary))),
     ("failures", some (.list (report.failures.map Failure.toJson))),
     ("traces",
       if report.traces.isEmpty then none else some (.list (report.traces.map UnitTrace.toJson))),
     ("summary", some report.summary)]

end Report

end RuleSieve
