/-
  Reports of what rules found in a number of units.
-/
import RuleSieve.Timing
import RuleSieve.Verdict

namespace RuleSieve

/-! ## Entries -/

/-- A unit that could not be evaluated. -/
structure Failure where
  ruleId : String
  path : Option String
  kind : FaultKind
  message : String
  deriving Repr, DecidableEq

/-- The record of the evaluation of a unit. -/
structure UnitTrace where
  ruleId : String
  path : Option String
  trace : Trace
  deriving Repr

/-- A report. -/
structure Report where
  findings : List Finding := []
  failures : List Failure := []
  traces : List UnitTrace := []
  /-- The number of units that were evaluated, failed ones among them. -/
  processed : Nat := 0
  /-- The number of units whose rule is disabled. -/
  skipped : Nat := 0
  /-- How long everything took, in nanoseconds. -/
  duration : Nat := 0
  timings : Dict Timing := []

namespace Report

/-- The report of nothing. -/
def empty : Report := {}

/-- The report with what another one holds added, however large the numbers become.  The duration is
    that of the first. -/
def merge (report other : Report) : Report :=
  { findings := report.findings ++ other.findings
    failures := report.failures ++ other.failures
    traces := report.traces ++ other.traces
    processed := report.processed + other.processed
    skipped := report.skipped + other.skipped
    duration := report.duration
    timings := Timing.mergeAll report.timings other.timings }

/-- The report with what another one holds added in 64 bits. -/
def merge? (checked : Bool) (report other : Report) : Option Report := do
  let processed ← Word.add? checked report.processed other.processed
  let skipped ← Word.add? checked report.skipped other.skipped
  let timings ← Timing.mergeAll? checked report.timings other.timings
  return { report.merge other with processed, skipped, timings }

/-- The report of a unit that took some time. -/
def timed (nanoseconds : Nat) (report : Report) : Report :=
  { report with
    timings := report.timings.map fun (id, timing) => (id, { timing with total := nanoseconds }) }

/-- Could some unit not be evaluated? -/
def hasFailures (report : Report) : Bool := !report.failures.isEmpty

/-- The number of findings of a severity. -/
def count (report : Report) (severity : Severity) : Nat :=
  (report.findings.filter (·.severity == severity)).length

/-- The exit code of a program that ends with the report: 6 if a predicate was not allowed to run, 2 if
    something else failed, 1 if there are findings, and 0 if there is nothing. -/
def exitCode (report : Report) : Nat :=
  if report.failures.any (·.kind == .executionNotAllowed) then FaultKind.executionNotAllowed.exitCode
  else if report.hasFailures then FaultKind.schemaViolation.exitCode
  else if !report.findings.isEmpty then 1
  else 0

end Report

end RuleSieve
