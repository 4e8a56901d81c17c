/-
  What a rule makes of the matches of a file: its findings, and the record of how it came to them.
-/
import RuleSieve.Evaluation
import RuleSieve.Rule
import RuleSieve.Template

namespace RuleSieve

namespace Rule

/-- The finding of one match, where `ms` are all matches of the file. -/
def finding (rule : Rule) (ms : List Match) (m : Match) : Except Fault Finding := do
  let fix ← match rule.fix with
    | none => pure none
    | some template => some <$> Template.fillFix template m
  return {
    ruleId := rule.id
    path := none
    span := m.span
    message := Template.fillMessage rule.message m ms
    metadata := rule.metadata
    severity := rule.severity
    fix
    fixRegex := rule.fixRegex
    bindings := m.bindings }

/-- The findings of the matches whose spans were kept, in the order of the matches. -/
def findings (rule : Rule) (kept : SpanSet) (ms : List Match) : Except Fault (List Finding) :=
  (ms.filter fun m => kept.contains m.span).mapM (rule.finding ms)

/-- The spans that the rule keeps, and the record of how. -/
def keep (rule : Rule) (ms : List Match) (allowExec : Bool) : Noted (SpanSet × Trace) :=
  let registry := Registry.ofMatches ms
  match rule.mode with
  | .taint => pure (.ofList (ms.map (·.span)), ⟨registry.spansByPattern, []⟩)
  | .search => do
    let expression ← .ofExcept rule.neededExpression
    expression.evaluate ⟨registry, allowExec⟩

/-- What the rule makes of the matches of a file, with the notes that were made. -/
def judge (rule : Rule) (ms : List Match) (allowExec : Bool) : Noted (List Finding × Trace) := do
  let (kept, trace) ← rule.keep ms allowExec
  let found ← .ofExcept (rule.findings kept ms)
  return (found, trace)

/-- What the rule makes of the matches of a file.  A fault tells which rule it arose from. -/
def evaluate (rule : Rule) (ms : List Match) (allowExec : Bool) :
    Except RuleFault (List Finding × Trace) :=
  (rule.judge ms allowExec).result.mapError (⟨rule.id, ·⟩)

end Rule

end RuleSieve
