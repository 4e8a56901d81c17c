/-
  Filters that look at what metavariables are bound to.

  A span is kept if some match of the same interval satisfies the operand.  What cannot be judged is
  dropped with a note; only an operand that makes no sense is a fault.
-/
import RuleSieve.Expression.Basic
import RuleSieve.Match
import RuleSieve.Noted
import RuleSieve.NumberText
import RuleSieve.Predicate.Evaluation

namespace RuleSieve.Filter

/-! ## Judging spans -/

/-- A judgement, with the notes made on the way. -/
abbrev Verdict := Bool × List Note

/-- Does some match satisfy the test?  The matches after the first one that does are not looked at. -/
def someMatch (test : Match → Verdict) : List Match → Verdict
  | [] => (false, [])
  | m :: ms =>
    let (holds, notes) := test m
    if holds then (true, notes)
    else
      let (later, more) := someMatch test ms
      (later, notes ++ more)

/-- The judgement on one span: the metavariable must be bound in it, and a match of the same interval
    must bind it to a text that satisfies the test. -/
def judgeSpan (metavariable : String) (ms : List Match) (test : String → Verdict) (s : Span) :
    Verdict :=
  if !s.binds metavariable then (false, [.missing metavariable s])
  else
    someMatch (fun m =>
      if m.span.SameInterval s then (m.value? metavariable).elim (false, []) test else (false, [])) ms

/-- The candidates whose bound text satisfies the test. -/
def retainBound (candidates : SpanSet) (metavariable : String) (ms : List Match)
    (test : Span → String → Verdict) : Noted SpanSet :=
  let judge (s : Span) : Verdict := judgeSpan metavariable ms (test s) s
  ⟨candidates.spans.flatMap fun s => (judge s).2, .ok (candidates.filter fun s => (judge s).1)⟩

/-! ## By regular expression -/

/-- Compiles a pattern that is meant to match at the start of a text only. -/
def anchoredRegex (pattern : String) : Except Fault Regex :=
  (Regex.compile (Regex.anchored pattern.toList)).mapError (.invalidRegex pattern)

/-- The candidates in which the metavariable is bound to a text that the pattern matches at its
    start. -/
def byRegex (candidates : SpanSet) (ms : List Match) (condition : MetavariableCondition) :
    Noted SpanSet := do
  let pattern ← .ofExcept <|
    condition.regex.elim (.error (.schema (.wantsRegex condition.metavariable))) .ok
  let regex ← .ofExcept (anchoredRegex pattern)
  retainBound candidates condition.metavariable ms fun _ text => (regex.isMatch text.toList, [])

/-! ## By comparison -/

/-- Does the comparison hold of the number that a text writes? -/
def comparisonHolds (comparison : Predicate) (condition : MetavariableCondition) (s : Span)
    (text : String) : Verdict :=
  match NumberText.read? text (condition.strip.getD false) condition.base with
  | none => (false, [.notANumber condition.metavariable text])
  | some number =>
    match comparison.evaluate [(condition.metavariable, number)] with
    | .ok value => (value.truthy, [])
    | .error problem => (false, [.comparisonFailed comparison.source s problem])

/-- The candidates in which the metavariable is bound to a number that satisfies the comparison. -/
def byComparison (candidates : SpanSet) (ms : List Match) (condition : MetavariableCondition) :
    Noted SpanSet := do
  let source ← .ofExcept <|
    condition.comparison.elim (.error (.schema (.wantsComparison condition.metavariable))) .ok
  let comparison ← .ofExcept ((Predicate.parse source).mapError (.invalidExpression source))
  retainBound candidates condition.metavariable ms (comparisonHolds comparison condition)

/-! ## By predicate -/

/-- What the names of a predicate stand for at a match: every bound name for its text, and `vars` for
    the map of them all. -/
def whereScope (m : Match) : Predicate.Scope :=
  let texts := m.bindings.map fun (name, binding) => (name, Predicate.Value.str binding.content)
  Dict.insert "vars" (.map texts) texts

/-- Does the predicate hold at a match?  A predicate that fails does not; one with a value that is
    not a truth value is a fault. -/
def whereHolds (predicate : Predicate) (m : Match) : Noted Bool :=
  match predicate.evaluate (whereScope m) with
  | .ok (.bool b) => ⟨[], .ok b⟩
  | .ok value => ⟨[], .error (.schema (.notBoolean predicate.source value))⟩
  | .error (.unbound name) => ⟨[.unboundInWhere name predicate.source], .ok false⟩
  | .error problem => ⟨[.whereFailed predicate.source problem], .ok false⟩

/-- The spans of the matches among the candidates at which the predicate holds, added to `kept`. -/
def whereFrom (predicate : Predicate) (candidates kept : SpanSet) : List Match → Noted SpanSet
  | [] => pure kept
  | m :: ms =>
    if candidates.contains m.span then do
      let holds ← whereHolds predicate m
      whereFrom predicate candidates (if holds then kept.insert m.span else kept) ms
    else whereFrom predicate candidates kept ms

/-- The candidates at which the predicate holds.  A source that is no predicate keeps none. -/
def byPredicate (candidates : SpanSet) (ms : List Match) (source : String) : Noted SpanSet :=
  match Predicate.parse source with
  | .ok predicate => whereFrom predicate candidates .empty ms
  | .error problem => ⟨[.whereFailed source problem], .ok .empty⟩

end RuleSieve.Filter
