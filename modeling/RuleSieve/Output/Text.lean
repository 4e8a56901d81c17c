/-
  Reports as a text for people.

  Findings stand under the path of their file, files in order; then come failures, traces and counts.
-/
import RuleSieve.Output.Paint
import RuleSieve.Report

namespace RuleSieve

/-- What a text shows, and how. -/
structure TextStyle where
  colored : Bool := true
  fixes : Bool := true
  traces : Bool := false
  stats : Bool := true
  deriving Repr, DecidableEq

namespace TextStyle

/-- The text in colour, if colours are on. -/
def paint (style : TextStyle) (paint : Paint) (text : String) : String :=
  Paint.when style.colored paint text

/-- The colour of the name of a severity. -/
def severityPaint : Severity → Paint
  | .error => .boldRed
  | .warning => .boldYellow
  | .info => .blue

/-! ## Findings -/

/-- The lines of the fixes of a finding. -/
def fixLines (style : TextStyle) (f : Finding) : String :=
  let sign := style.paint .green "="
  f.fix.elim "" (fun fix => s!"   {sign} fix: {style.paint .green fix}\n")
    ++ f.fixRegex.elim "" fun fix => s!"   {sign} fix-regex: s/{fix.regex}/{fix.replacement}/\n"

/-- The lines of a finding. -/
def finding (style : TextStyle) (f : Finding) : String :=
  let severity := style.paint (severityPaint f.severity) f.severity.name
  s!"{Finding.shownPath f.path}:{f.span.text}: {severity}[{style.paint .cyan f.ruleId}]: {f.message}\n"
    ++ (if style.fixes then style.fixLines f else "")

/-- The findings of each file, by the path that is shown. -/
def byPath (findings : List Finding) : Dict (List Finding) :=
  findings.foldl (fun sections f =>
    Dict.alter (Finding.shownPath f.path) (fun known => known.getD [] ++ [f]) sections) []

/-- The section of a file. -/
def fileSection (style : TextStyle) (path : String) (findings : List Finding) : String :=
  style.paint .underline path ++ "\n" ++ String.join (findings.map style.finding) ++ "\n"

/-! ## Failures and traces -/

/-- The line of a failure. -/
def failure (style : TextStyle) (f : Failure) : String :=
  let kind := style.paint .cyan f.kind.name
  let word := style.paint .boldRed "failed"
  s!"{Finding.shownPath f.path}: {word}[{kind}]: {f.message}\n"

/-- The lines of a trace. -/
def trace (style : TextStyle) (t : UnitTrace) : String :=
  let head := s!"{style.paint .cyan t.ruleId} {Finding.shownPath t.path}\n"
  let initial := t.trace.initial.map fun (id, spans) => s!"   · {id}: {spanList spans}\n"
  let arrow := style.paint .blue "→"
  let steps := t.trace.steps.map fun step => s!"   {arrow} {step.text}\n"
  head ++ String.join initial ++ String.join steps

/-- A section with a heading; nothing if it has no entries. -/
def section? (style : TextStyle) (heading : String) (entries : List String) : String :=
  if entries.isEmpty then ""
  else style.paint .underline heading ++ "\n" ++ String.join entries ++ "\n"

/-! ## Counts -/

/-- A number of things. -/
def plural (count : Nat) (one many : String) : String :=
  let things := if count = 1 then one else many
  s!"{count} {things}"

/-- A number of things in colour; nothing if there are none. -/
def counted (style : TextStyle) (paint : Paint) (count : Nat) (one many : String) : List String :=
  if count = 0 then [] else [style.paint paint (plural count one many)]

/-- The number of findings of each severity, and of failures. -/
def counts (style : TextStyle) (report : Report) : List String :=
  style.counted .red (report.count .error) "error" "errors"
    ++ style.counted .yellow (report.count .warning) "warning" "warnings"
    ++ style.counted .blue (report.count .info) "info" "infos"
    ++ style.counted .boldRed report.failures.length "failure" "failures"

/-- The lines at the end. -/
def statistics (style : TextStyle) (report : Report) : String :=
  let units := plural report.processed "unit" "units"
  let skipped := if report.skipped > 0 then s!" ({report.skipped} skipped)" else ""
  let counts := style.counts report
  let summary := if counts.isEmpty then "" else ": " ++ String.intercalate ", " counts
  s!"{units} evaluated{skipped}{summary}\n"
    ++ "Finished in " ++ Binary64.fixedText 2 (Timing.seconds report.duration) ++ "s\n"

/-! ## The whole report -/

/-- The text of a report. -/
def report (style : TextStyle) (r : Report) : String :=
  String.join ((byPath r.findings).map fun (path, findings) => style.fileSection path findings)
    ++ style.section? "Failures" (r.failures.map style.failure)
    ++ (if style.traces then style.section? "Traces" (r.traces.map style.trace) else "")
    ++ (if style.stats then style.statistics r else "")

end TextStyle

end RuleSieve
