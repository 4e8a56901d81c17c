/-
  Evaluating expressions over the spans of matches.

  Evaluation starts from the spans of all matches.  A leaf keeps some of the spans it is given; every
  part of a group is given the same spans as the group, so no part sees what another one has dropped.
  Each node leaves one step in the record, after the steps of its parts.
-/
import RuleSieve.Filter

namespace RuleSieve

/-! ## The record -/

/-- What one operator kept. -/
structure Step where
  /-- The operator, as rules write it. -/
  filter : String
  patternId : Option String
  spans : List Span
  /-- What the names are bound to in the matches of the leaf's pattern; groups have no such table. -/
  bindings : Option (Dict (List Binding))
  deriving Repr

/-- The spans in braces. -/
def spanList (spans : List Span) : String :=
  "\x7b" ++ String.intercalate ", " (spans.map Span.text) ++ "\x7d"

/-- The line of a step. -/
def Step.text (step : Step) : String :=
  step.filter ++ step.patternId.elim "" (fun id => s!" ({id})") ++ ": " ++ spanList step.spans

/-- The record of an evaluation: the different spans of each pattern before any filter, and the steps
    in the order in which they ended. -/
structure Trace where
  initial : Dict (List Span)
  steps : List Step
  deriving Repr

/-! ## Leaves -/

/-- What an evaluation looks things up in. -/
structure Surroundings where
  registry : Registry
  /-- May predicates run? -/
  allowExec : Bool

/-- The candidates that a leaf keeps. -/
def Leaf.keep (env : Surroundings) (leaf : Leaf) (candidates : SpanSet) : Noted SpanSet :=
  let spans := env.registry.spansFor leaf.patternId
  let found (s : Span) : Bool := spans.any fun p => p.SameInterval s
  let enclosed (s : Span) : Bool := spans.any fun p => p.encloses s
  match leaf.operator with
  | .pattern | .patternRegex => pure (candidates.filter found)
  | .patternNot => pure (candidates.filter fun s => !found s)
  | .patternInside => pure (candidates.filter enclosed)
  | .patternNotInside => pure (candidates.filter fun s => !enclosed s)
  | .patternNotRegex => pure (candidates.filter fun s => !spans.any fun p => s.encloses p)
  | .metavariableRegex => do
    Filter.byRegex candidates env.registry.allMatches (← .ofExcept leaf.recordOperand)
  | .metavariableComparison => do
    Filter.byComparison candidates env.registry.allMatches (← .ofExcept leaf.recordOperand)
  | .patternWhere =>
    if !env.allowExec then .ofExcept (.error .executionNotAllowed)
    else do Filter.byPredicate candidates env.registry.allMatches (← .ofExcept leaf.textOperand)

/-- The step that a leaf leaves. -/
def Leaf.step (env : Surroundings) (leaf : Leaf) (kept : SpanSet) : Step :=
  ⟨leaf.operator.displayName, leaf.patternId, kept.spans,
    some (env.registry.bindingsFor leaf.patternId)⟩

/-! ## Expressions -/

/-- The candidates that a group keeps, given what its parts keep. -/
def GroupOperator.combine (op : GroupOperator) (candidates : SpanSet) (parts : List SpanSet) :
    SpanSet :=
  match op with
  | .either => candidates.filter fun s => parts.any fun part => part.contains s
  | .all => candidates.filter fun s => parts.all fun part => part.contains s

/-- The step that a group leaves. -/
def GroupOperator.step (op : GroupOperator) (kept : SpanSet) : Step :=
  ⟨op.displayName, none, kept.spans, none⟩

mutual

/-- What an expression keeps of the candidates, and the steps of its nodes. -/
def Expression.keep (env : Surroundings) (candidates : SpanSet) :
    Expression → Noted (SpanSet × List Step)
  | .leaf l => do
    let kept ← l.keep env candidates
    return (kept, [l.step env kept])
  | .group op first rest => do
    let (head, headSteps) ← first.keep env candidates
    let (tail, tailSteps) ← keepParts env candidates rest
    let kept := op.combine candidates (head :: tail)
    return (kept, headSteps ++ tailSteps ++ [op.step kept])

/-- What several expressions keep, each of the same candidates. -/
def keepParts (env : Surroundings) (candidates : SpanSet) :
    List Expression → Noted (List SpanSet × List Step)
  | [] => pure ([], [])
  | part :: parts => do
    let (kept, steps) ← part.keep env candidates
    let (more, moreSteps) ← keepParts env candidates parts
    return (kept :: more, steps ++ moreSteps)

end

/-- Evaluates an expression over all matches. -/
def Expression.evaluate (e : Expression) (env : Surroundings) : Noted (SpanSet × Trace) := do
  let (kept, steps) ← e.keep env env.registry.allSpans
  return (kept, ⟨env.registry.spansByPattern, steps⟩)

end RuleSieve
