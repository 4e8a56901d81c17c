/-
  The meaning of an expression, span by span.

  `Expression.Accepts` says of one span whether the expression holds of it, given the matches of the
  file.  It knows nothing of candidates: evaluation keeps of any candidates just the intervals of
  those that the expression accepts (`keep_selects`), so what happens to one candidate does not depend
  on which others are there, nor on what the other parts of a group keep.
-/
import RuleSieve.Proofs.Filter
import RuleSieve.Proofs.Grouping
import RuleSieve.Proofs.Traversal

namespace RuleSieve

open Outcome (fault?)

/-! ## Leaves -/

/-- It does not matter that the registry groups the matches by pattern. -/
theorem Filter.boundTo_allMatches {ms : List Match} {name : String} {p : String → Prop} {s : Span} :
    BoundTo (Registry.ofMatches ms).allMatches name p s ↔ BoundTo ms name p s := by
  simp only [BoundTo, Registry.mem_allMatches]

namespace Leaf

/-- Some match of the leaf's pattern has the interval of the span. -/
def Finds (ms : List Match) (l : Leaf) (s : Span) : Prop :=
  ∃ m ∈ ms, l.patternId = some m.patternId ∧ m.span.SameInterval s

/-- Some match of the leaf's pattern encloses the span. -/
def Encloses (ms : List Match) (l : Leaf) (s : Span) : Prop :=
  ∃ m ∈ ms, l.patternId = some m.patternId ∧ m.span.start ≤ s.start ∧ s.stop ≤ m.span.stop

/-- The span encloses some match of the leaf's pattern. -/
def EnclosedBy (ms : List Match) (l : Leaf) (s : Span) : Prop :=
  ∃ m ∈ ms, l.patternId = some m.patternId ∧ s.start ≤ m.span.start ∧ m.span.stop ≤ s.stop

/-- The leaf holds of the span, where `ms` are the matches of the file. -/
def Accepts (ms : List Match) (l : Leaf) (s : Span) : Prop :=
  match l.operator with
  | .pattern | .patternRegex => l.Finds ms s
  | .patternNot => ¬ l.Finds ms s
  | .patternInside => l.Encloses ms s
  | .patternNotInside => ¬ l.Encloses ms s
  | .patternNotRegex => ¬ l.EnclosedBy ms s
  | .metavariableRegex => ∃ c, l.operand = some (.record c) ∧ c.metavariable ∈ s.vars ∧
      Filter.BoundTo ms c.metavariable c.RegexMatches s
  | .metavariableComparison => ∃ c, l.operand = some (.record c) ∧ c.metavariable ∈ s.vars ∧
      Filter.BoundTo ms c.metavariable c.ComparisonHolds s
  | .patternWhere => ∃ source, l.operand = some (.text source) ∧
      ∃ m ∈ ms, m.span.SameInterval s ∧ Filter.WhereTrue source m

theorem recordOperand_eq_ok_iff {l : Leaf} {c : MetavariableCondition} :
    l.recordOperand = .ok c ↔ l.operand = some (.record c) := by
  unfold recordOperand
  split <;> simp_all

theorem textOperand_eq_ok_iff {l : Leaf} {text : String} :
    l.textOperand = .ok text ↔ l.operand = some (.text text) := by
  unfold textOperand
  split <;> simp_all

variable {ms : List Match} {l : Leaf} {s : Span}

/-- Some match of the pattern has the interval. -/
theorem any_same_iff :
    (((Registry.ofMatches ms).spansFor l.patternId).any fun p => p.SameInterval s) = true ↔
      l.Finds ms s := by
  simp only [Registry.any_spansFor_iff, decide_eq_true_eq, Finds]

/-- Some match of the pattern encloses the interval. -/
theorem any_encloses_iff :
    (((Registry.ofMatches ms).spansFor l.patternId).any fun p => p.encloses s) = true ↔
      l.Encloses ms s := by
  simp only [Registry.any_spansFor_iff, Span.encloses_iff, Encloses]

/-- Some match of the pattern lies in the interval. -/
theorem any_enclosed_iff :
    (((Registry.ofMatches ms).spansFor l.patternId).any fun p => s.encloses p) = true ↔
      l.EnclosedBy ms s := by
  simp only [Registry.any_spansFor_iff, Span.encloses_iff, EnclosedBy]

/-- A leaf keeps the intervals of the candidates that it accepts. -/
theorem keep_selects {allowExec : Bool} {candidates kept : SpanSet}
    (h : (l.keep ⟨.ofMatches ms, allowExec⟩ candidates).result = .ok kept) :
    candidates.Selects (l.Accepts ms) kept := by
  unfold keep at h
  unfold Accepts
  cases hop : l.operator <;> simp only [hop] at h ⊢
  case pattern | patternRegex =>
    obtain rfl := Except.ok.inj h
    exact SpanSet.selects_filter fun s _ => any_same_iff
  case patternNot =>
    obtain rfl := Except.ok.inj h
    exact SpanSet.selects_filter_not fun s _ => any_same_iff
  case patternInside =>
    obtain rfl := Except.ok.inj h
    exact SpanSet.selects_filter fun s _ => any_encloses_iff
  case patternNotInside =>
    obtain rfl := Except.ok.inj h
    exact SpanSet.selects_filter_not fun s _ => any_encloses_iff
  case patternNotRegex =>
    obtain rfl := Except.ok.inj h
    exact SpanSet.selects_filter_not fun s _ => any_enclosed_iff
  case metavariableRegex =>
    obtain ⟨c, hc, h⟩ := Noted.result_bind_eq_ok_iff.1 h
    refine (Filter.byRegex_selects h).congr fun s => ?_
    simp [recordOperand_eq_ok_iff.1 hc, Filter.boundTo_allMatches]
  case metavariableComparison =>
    obtain ⟨c, hc, h⟩ := Noted.result_bind_eq_ok_iff.1 h
    refine (Filter.byComparison_selects h).congr fun s => ?_
    simp [recordOperand_eq_ok_iff.1 hc, Filter.boundTo_allMatches]
  case patternWhere =>
    split at h
    · exact absurd h (by simp)
    · obtain ⟨source, hs, h⟩ := Noted.result_bind_eq_ok_iff.1 h
      refine (Filter.byPredicate_selects h).congr fun s => ?_
      simp [textOperand_eq_ok_iff.1 hs, Registry.mem_allMatches]

end Leaf

/-! ## Expressions -/

namespace Expression

mutual

/-- The expression holds of the span, where `ms` are the matches of the file. -/
def Accepts (ms : List Match) (s : Span) : Expression → Prop
  | .leaf l => l.Accepts ms s
  | .group .either first rest => first.Accepts ms s ∨ SomeAccepts ms s rest
  | .group .all first rest => first.Accepts ms s ∧ AllAccept ms s rest

/-- Some of the expressions holds of the span. -/
def SomeAccepts (ms : List Match) (s : Span) : List Expression → Prop
  | [] => False
  | part :: parts => part.Accepts ms s ∨ SomeAccepts ms s parts

/-- All of the expressions hold of the span. -/
def AllAccept (ms : List Match) (s : Span) : List Expression → Prop
  | [] => True
  | part :: parts => part.Accepts ms s ∧ AllAccept ms s parts

end

variable {ms : List Match} {s : Span}

/-- Some part accepts a span, said of the list of parts. -/
theorem someAccepts_iff {parts : List Expression} :
    SomeAccepts ms s parts ↔ ∃ part ∈ parts, part.Accepts ms s := by
  induction parts with
  | nil => simp [SomeAccepts]
  | cons part parts ih => rw [SomeAccepts, ih, List.exists_mem_cons_iff]

/-- All parts accept a span, said of the list of parts. -/
theorem allAccept_iff {parts : List Expression} :
    AllAccept ms s parts ↔ ∀ part ∈ parts, part.Accepts ms s := by
  induction parts with
  | nil => simp [AllAccept]
  | cons part parts ih => rw [AllAccept, ih, List.forall_mem_cons]

theorem accepts_leaf {l : Leaf} : (leaf l).Accepts ms s ↔ l.Accepts ms s := by
  rw [Accepts]

/-- Alternatives accept what one of them does. -/
theorem accepts_either {first : Expression} {rest : List Expression} :
    (group .either first rest).Accepts ms s ↔ ∃ part ∈ first :: rest, part.Accepts ms s := by
  rw [Accepts, someAccepts_iff, List.exists_mem_cons_iff]

/-- A conjunction accepts what all of its parts do. -/
theorem accepts_all {first : Expression} {rest : List Expression} :
    (group .all first rest).Accepts ms s ↔ ∀ part ∈ first :: rest, part.Accepts ms s := by
  rw [Accepts, allAccept_iff, List.forall_mem_cons]

/-- What a group keeps, if each part keeps what it accepts. -/
theorem combine_selects {candidates : SpanSet} {first : Expression} {rest : List Expression}
    {kept : List SpanSet} (op : GroupOperator)
    (h : List.Forall₂ (fun (part : Expression) out =>
      candidates.Selects (fun s => part.Accepts ms s) out) (first :: rest) kept) :
    candidates.Selects (fun s => (group op first rest).Accepts ms s)
      (op.combine candidates kept) := by
  -- a candidate is looked up in what each part keeps, and found just if the part accepts it
  have hcontains : ∀ s ∈ candidates.spans, List.Forall₂ (fun (part : Expression) out =>
      part.Accepts ms s ↔ out.contains s = true) (first :: rest) kept :=
    fun s hs => h.imp fun _ _ hsel => (hsel.contains_iff hs).symm
  cases op with
  | either =>
    refine SpanSet.selects_filter fun s hs => ?_
    rw [List.any_eq_true, accepts_either]
    exact (Outcome.exists_mem_iff_of_forall₂ (hcontains s hs)).symm
  | all =>
    refine SpanSet.selects_filter fun s hs => ?_
    rw [List.all_eq_true, accepts_all]
    exact (Outcome.forall_mem_iff_of_forall₂ (hcontains s hs)).symm

/-- An expression keeps the intervals of the candidates that it accepts. -/
theorem keep_selects {allowExec : Bool} {candidates kept : SpanSet} {steps : List Step}
    {e : Expression}
    (h : (e.keep ⟨.ofMatches ms, allowExec⟩ candidates).result = .ok (kept, steps)) :
    candidates.Selects (fun s => e.Accepts ms s) kept := by
  induction e generalizing kept steps with
  | leaf l =>
    obtain ⟨hout, -⟩ := keep_leaf_eq_ok_iff.1 h
    exact (Leaf.keep_selects hout).congr fun s => accepts_leaf.symm
  | group op first rest ih =>
    obtain ⟨outcomes, hparts, rfl, -⟩ := keep_group_eq_ok_iff.1 h
    refine combine_selects op ?_
    rw [List.forall₂_map_right_iff]
    exact ((List.forall₂_and_left _ _).2 ⟨ih, hparts⟩).imp fun _ _ hpart => hpart.1 hpart.2

/-- The order of the parts makes no difference to what a group keeps. -/
theorem keep_group_perm {allowExec : Bool} {candidates kept : SpanSet} {steps : List Step}
    {op : GroupOperator} {first first' : Expression} {rest rest' : List Expression}
    (hperm : (first :: rest).Perm (first' :: rest'))
    (h : ((group op first rest).keep ⟨.ofMatches ms, allowExec⟩ candidates).result =
      .ok (kept, steps)) :
    ∃ kept' steps', ((group op first' rest').keep ⟨.ofMatches ms, allowExec⟩ candidates).result =
      .ok (kept', steps') ∧ kept'.intervals = kept.intervals := by
  -- no part fails, so the group does not fail with its parts in another order
  have hok : ∀ part ∈ first :: rest,
      fault? (part.keep ⟨.ofMatches ms, allowExec⟩ candidates).result = none := by
    rw [← List.findSome?_eq_none_iff, ← fault?_keep_group, h, Outcome.fault?_ok]
  have hok' : fault? ((group op first' rest').keep ⟨.ofMatches ms, allowExec⟩ candidates).result =
      none := by
    rw [fault?_keep_group, List.findSome?_eq_none_iff]
    exact fun part hpart => hok part (hperm.mem_iff.2 hpart)
  obtain ⟨⟨kept', steps'⟩, h'⟩ := Outcome.fault?_eq_none_iff.1 hok'
  have haccepts : ∀ s, (group op first' rest').Accepts ms s ↔ (group op first rest).Accepts ms s := by
    intro s
    cases op with
    | either => simp only [accepts_either, hperm.mem_iff]
    | all => simp only [accepts_all, hperm.mem_iff]
  refine ⟨kept', steps', h', SpanSet.intervals_ext fun i => ?_⟩
  rw [keep_selects h i, keep_selects h' i]
  simp only [haccepts]

end Expression

/-! ## Evaluation is pointwise -/

/-- Two leaves that say the opposite of each other divide the candidates. -/
theorem Leaf.keep_partition (env : Surroundings) (candidates : SpanSet) {l l' : Leaf}
    (hid : l.patternId = l'.patternId)
    (hop : (l.operator = .pattern ∧ l'.operator = .patternNot) ∨
      (l.operator = .patternInside ∧ l'.operator = .patternNotInside)) :
    ∃ kept kept', (l.keep env candidates).result = .ok kept ∧
      (l'.keep env candidates).result = .ok kept' ∧
      (kept.intervals ++ kept'.intervals).Perm candidates.intervals := by
  rcases hop with ⟨h, h'⟩ | ⟨h, h'⟩
  all_goals
    simp only [Leaf.keep, h, h', hid]
    exact ⟨_, _, rfl, rfl, candidates.filter_append_filter_not _⟩

/-- Evaluation keeps of any candidates the intervals of those that the expression accepts.  Hence
    leaves that say the opposite of each other divide the candidates, and it makes no difference in
    which order the parts of a group stand. -/
theorem evaluation_pointwise (ms : List Match) (allowExec : Bool) (candidates : SpanSet) :
    (∀ (e : Expression) (kept : SpanSet) (steps : List Step),
      (e.keep ⟨.ofMatches ms, allowExec⟩ candidates).result = .ok (kept, steps) →
      ∀ i, i ∈ kept.intervals ↔ ∃ s ∈ candidates.spans, s.interval = i ∧ e.Accepts ms s) ∧
    (∀ l l' : Leaf, l.patternId = l'.patternId →
      ((l.operator = .pattern ∧ l'.operator = .patternNot) ∨
        (l.operator = .patternInside ∧ l'.operator = .patternNotInside)) →
      ∃ kept kept', (l.keep ⟨.ofMatches ms, allowExec⟩ candidates).result = .ok kept ∧
        (l'.keep ⟨.ofMatches ms, allowExec⟩ candidates).result = .ok kept' ∧
        (kept.intervals ++ kept'.intervals).Perm candidates.intervals) ∧
    (∀ (op : GroupOperator) (first first' : Expression) (rest rest' : List Expression)
        (kept : SpanSet) (steps : List Step), (first :: rest).Perm (first' :: rest') →
      ((Expression.group op first rest).keep ⟨.ofMatches ms, allowExec⟩ candidates).result =
        .ok (kept, steps) →
      ∃ kept' steps', ((Expression.group op first' rest').keep ⟨.ofMatches ms, allowExec⟩
        candidates).result = .ok (kept', steps') ∧ kept'.intervals = kept.intervals) := by
  refine ⟨?_, ?_, ?_⟩
  · intro e kept steps h
    exact Expression.keep_selects h
  · intro l l' hid hop
    exact Leaf.keep_partition _ candidates hid hop
  · intro op first first' rest rest' kept steps hperm h
    exact Expression.keep_group_perm hperm h

/-- A function and two calls, one of them inside the function and the other one around a name. -/
def callMatches : List Match :=
  [.bare "func" 0 10, .bare "call" 2 5, .bare "call" 20 25, .bare "name" 22 24]

/-- The calls that are inside a function or around no name. -/
def callExpression : Expression :=
  .group .all (.leaf ⟨.pattern, some "call", none⟩)
    [.group .either (.leaf ⟨.patternInside, some "func", none⟩)
      [.leaf ⟨.patternNotRegex, some "name", none⟩]]

theorem evaluation_pointwise_calls :
    ∃ kept steps, (callExpression.keep ⟨.ofMatches callMatches, false⟩
        (Registry.ofMatches callMatches).allSpans).result = .ok (kept, steps) ∧
      kept.intervals = [(2, 5)] ∧
      ∀ i, i ∈ kept.intervals ↔ ∃ s ∈ (Registry.ofMatches callMatches).allSpans.spans,
        s.interval = i ∧ callExpression.Accepts callMatches s := by
  have hkept : Outcome.intervals? (callExpression.keep ⟨.ofMatches callMatches, false⟩
      (Registry.ofMatches callMatches).allSpans).result = some [(2, 5)] := by rfl
  obtain ⟨kept, steps, h, hintervals⟩ := Outcome.intervals?_eq_some_iff.1 hkept
  exact ⟨kept, steps, h, hintervals, (evaluation_pointwise callMatches false _).1 _ kept steps h⟩

end RuleSieve
