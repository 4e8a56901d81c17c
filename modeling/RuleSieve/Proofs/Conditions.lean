/-
  What a condition on a metavariable keeps, wherever it stands in an expression.

  Two matches have a say in whether an interval is kept.  The last match of the interval, pattern by
  pattern (`ComesLast`), must bind the name: its span is the candidate, and every part of every group
  is given this same span.  And some match of the interval must bind the name to a text that passes;
  it may belong to any pattern, and it need not be the last one (`KeepsAt`).

  The record shows what a condition has kept in the middle of an evaluation (`Leaf.Asks.keeps_iff`).
-/
import RuleSieve.Proofs.Completeness
import RuleSieve.Proofs.Order
import RuleSieve.Proofs.Trace

namespace RuleSieve

/-! ## The last match of an interval -/

/-- Pattern by pattern, in the order of their ids, no match of the interval comes after this one: those
    before it have no greater ids, and those after it have smaller ones. -/
def ComesLast (ms : List Match) (i : Nat × Nat) (last : Match) : Prop :=
  ∃ before after, ms = before ++ last :: after ∧ last.span.interval = i ∧
    (∀ m ∈ before, m.span.interval = i → m.patternId ≤ last.patternId) ∧
    ∀ m ∈ after, m.span.interval = i → m.patternId < last.patternId

variable {ms : List Match} {i : Nat × Nat}

theorem ComesLast.mem {last : Match} (h : ComesLast ms i last) : last ∈ ms := by
  obtain ⟨before, after, rfl, -⟩ := h
  exact List.mem_append_right before List.mem_cons_self

theorem ComesLast.interval {last : Match} (h : ComesLast ms i last) : last.span.interval = i := by
  obtain ⟨_, _, -, hi, -⟩ := h
  exact hi

/-- An interval has one last match. -/
theorem ComesLast.unique {last last' : Match} (h : ComesLast ms i last)
    (h' : ComesLast ms i last') : last = last' := by
  obtain ⟨before, after, hms, hi, hbefore, hafter⟩ := h
  obtain ⟨before', after', hms', hi', hbefore', hafter'⟩ := h'
  -- if they stand at different places, then each of them has the smaller id
  rcases List.append_eq_append_iff.1 (hms.symm.trans hms') with
    ⟨between, hbetween, hrest⟩ | ⟨between, hbetween, hrest⟩
  · cases between with
    | nil => exact (List.cons.inj hrest).1
    | cons m between =>
      obtain ⟨rfl, rfl⟩ := List.cons.inj hrest
      have hlt := hafter last' (List.mem_append_right _ List.mem_cons_self) hi'
      have hle := hbefore' last (hbetween ▸ List.mem_append_right _ List.mem_cons_self) hi
      exact absurd hlt (String.not_lt.2 hle)
  · cases between with
    | nil => exact (List.cons.inj hrest).1.symm
    | cons m between =>
      obtain ⟨rfl, rfl⟩ := List.cons.inj hrest
      have hlt := hafter' last (List.mem_append_right _ List.mem_cons_self) hi
      have hle := hbefore last' (hbetween ▸ List.mem_append_right _ List.mem_cons_self) hi'
      exact absurd hlt (String.not_lt.2 hle)

namespace Registry

/-- Among all matches, none of the interval stands after the last one. -/
theorem split_of_last? {r : Registry} {s : Span} {last : Match} (h : r.last? s = some last) :
    ∃ early late, r.allMatches = early ++ last :: late ∧
      ∀ m ∈ late, m.span.interval ≠ s.interval := by
  rw [last?, List.find?_eq_some_iff_append] at h
  obtain ⟨-, late, early, hsplit, hlate⟩ := h
  refine ⟨early.reverse, late.reverse, ?_, fun m hm => ?_⟩
  · rw [← List.reverse_inj, hsplit]
    simp
  · simpa [Span.sameInterval_iff] using hlate m (List.mem_reverse.1 hm)

/-- No match of the interval has a greater id than the last one. -/
theorem patternId_le_of_last? {s : Span} {last m : Match} (h : (ofMatches ms).last? s = some last)
    (hm : m ∈ ms) (hi : m.span.interval = s.interval) : m.patternId ≤ last.patternId := by
  obtain ⟨early, late, hall, hlate⟩ := split_of_last? h
  have hordered := allMatches_ordered ms
  rw [hall] at hordered
  obtain ⟨-, -, hearly⟩ := List.pairwise_append.1 hordered
  rw [← mem_allMatches, hall, List.mem_append, List.mem_cons] at hm
  rcases hm with hm | rfl | hm
  · exact hearly m hm last List.mem_cons_self
  · exact String.le_refl _
  · exact absurd hi (hlate m hm)

/-- What is found last among all matches comes last, pattern by pattern. -/
theorem comesLast_of_last? {s : Span} {last : Match} (h : (ofMatches ms).last? s = some last) :
    ComesLast ms s.interval last := by
  obtain ⟨early, late, hall, hlate⟩ := split_of_last? h
  -- the matches of its pattern stand in the same order among all matches and in the list
  have hsame := filter_allMatches ms last.patternId
  have hself : (last.patternId == last.patternId) = true := beq_self_eq_true _
  rw [hall, List.filter_append, List.filter_cons, if_pos hself, eq_comm] at hsame
  obtain ⟨start, rest, hms, -, hrest⟩ := List.filter_eq_append_iff.1 hsame
  obtain ⟨others, after, rfl, -, -, hafter⟩ := List.filter_eq_cons_iff.1 hrest
  refine ⟨start ++ others, after, by rw [hms, List.append_assoc], (last?_eq_some h).2, ?_, ?_⟩
  · intro m hm hi
    refine patternId_le_of_last? h ?_ hi
    rw [hms, ← List.append_assoc]
    exact List.mem_append_left _ hm
  · intro m hm hi
    have hmem : m ∈ ms := by
      rw [hms]
      exact List.mem_append_right _ (List.mem_append_right _ (List.mem_cons_of_mem _ hm))
    refine String.not_le.1 fun hge => ?_
    -- with the same id it would stand after the last match there, too
    have hid : m.patternId = last.patternId :=
      String.le_antisymm (patternId_le_of_last? h hmem hi) hge
    have hlater : m ∈ late.filter (·.patternId == last.patternId) :=
      hafter ▸ List.mem_filter.2 ⟨hm, beq_iff_eq.2 hid⟩
    exact hlate m (List.mem_filter.1 hlater).1 hi

/-- The candidate of an interval is the span of the match that comes last. -/
theorem last?_eq_some_iff {s : Span} {last : Match} :
    (ofMatches ms).last? s = some last ↔ ComesLast ms s.interval last := by
  constructor
  · exact comesLast_of_last?
  · intro h
    obtain ⟨last', hlast'⟩ := exists_last? h.mem
    rw [last?_congr _ h.interval] at hlast'
    rw [hlast', (comesLast_of_last? hlast').unique h]

end Registry

/-! ## Conditions -/

/-- The spans of the matches know the names that the matches bind, and no other ones. -/
def KnowOwnNames (ms : List Match) : Prop :=
  ∀ m ∈ ms, ∀ name, name ∈ m.span.vars ↔ m.binds name = true

/-- Matches that are made from their bindings have such spans. -/
theorem knowOwnNames_of_ofBindings
    (h : ∀ m ∈ ms, ∃ id start stop bindings, m = .ofBindings id start stop bindings) :
    KnowOwnNames ms := by
  intro m hm name
  obtain ⟨id, start, stop, bindings, rfl⟩ := h m hm
  rw [Match.binds, Dict.has_iff]
  exact mem_nameSet

/-- The leaf asks whether a name is bound to a text with a property: one that a regular expression
    matches at its start, or one that writes a number of which a comparison holds. -/
inductive Leaf.Asks : Leaf → String → (String → Prop) → Prop
  | regex {l : Leaf} {c : MetavariableCondition} (hop : l.operator = .metavariableRegex)
      (hoperand : l.operand = some (.record c)) : Asks l c.metavariable c.RegexMatches
  | comparison {l : Leaf} {c : MetavariableCondition} (hop : l.operator = .metavariableComparison)
      (hoperand : l.operand = some (.record c)) : Asks l c.metavariable c.ComparisonHolds

/-- The last match of the interval binds the name, and some match of it binds the name to a text with
    the property. -/
structure KeepsAt (ms : List Match) (name : String) (p : String → Prop) (i : Nat × Nat) : Prop where
  last : ∃ last, ComesLast ms i last ∧ last.binds name = true
  text : ∃ m ∈ ms, m.span.interval = i ∧ ∃ text, m.value? name = some text ∧ p text

namespace Leaf

variable {l : Leaf} {name : String} {p : String → Prop} {allowExec : Bool}

theorem Asks.accepts_iff (hasks : l.Asks name p) (s : Span) :
    l.Accepts ms s ↔ name ∈ s.vars ∧ Filter.BoundTo ms name p s := by
  cases hasks with
  | regex hop hoperand => simp [Accepts, hop, hoperand]
  | comparison hop hoperand => simp [Accepts, hop, hoperand]

/-- A condition drops candidates, and leaves the other ones as they are. -/
theorem Asks.keep_subset {env : Surroundings} {candidates kept : SpanSet} (hasks : l.Asks name p)
    (h : (l.keep env candidates).result = .ok kept) : ∀ s ∈ kept.spans, s ∈ candidates.spans := by
  unfold keep at h
  cases hasks with
  | regex hop _ =>
    simp only [hop] at h
    obtain ⟨_, -, h⟩ := Noted.result_bind_eq_ok_iff.1 h
    exact Filter.byRegex_subset h
  | comparison hop _ =>
    simp only [hop] at h
    obtain ⟨_, -, h⟩ := Noted.result_bind_eq_ok_iff.1 h
    exact Filter.byComparison_subset h

/-- A condition holds of the last match of an interval just if that match binds the name and some match
    binds it to a text that passes. -/
theorem Asks.acceptsLast_iff (hnames : KnowOwnNames ms) (hasks : l.Asks name p) (s : Span) :
    (Expression.leaf l).AcceptsLast ms s ↔ KeepsAt ms name p s.interval := by
  have hbound : ∀ last, ComesLast ms s.interval last →
      (Filter.BoundTo ms name p last.span ↔
        ∃ m ∈ ms, m.span.interval = s.interval ∧ ∃ text, m.value? name = some text ∧ p text) := by
    intro last hlast
    simp only [Filter.BoundTo, Span.sameInterval_iff, hlast.interval]
  simp only [Expression.AcceptsLast, Registry.last?_eq_some_iff, Expression.accepts_leaf,
    hasks.accepts_iff]
  constructor
  · rintro ⟨last, hlast, hvars, htext⟩
    exact ⟨⟨last, hlast, (hnames last hlast.mem name).1 hvars⟩, (hbound last hlast).1 htext⟩
  · rintro ⟨⟨last, hlast, hbinds⟩, htext⟩
    exact ⟨last, hlast, (hnames last hlast.mem name).2 hbinds, (hbound last hlast).2 htext⟩

/-- Over the spans of all matches a condition keeps the intervals whose last match binds the name, if
    the text of some match passes, and each as the span of that last match. -/
theorem Asks.keep_iff {kept : SpanSet} (hnames : KnowOwnNames ms) (hasks : l.Asks name p)
    (h : (l.keep ⟨.ofMatches ms, allowExec⟩ (Registry.ofMatches ms).allSpans).result = .ok kept) :
    (∀ i, i ∈ kept.intervals ↔ KeepsAt ms name p i) ∧
      ∀ s ∈ kept.spans, ∃ last, ComesLast ms s.interval last ∧ last.span = s := by
  have hkeep := Expression.keep_leaf_eq_ok_iff.2 ⟨h, rfl⟩
  constructor
  · intro i
    have haccepts :=
      Expression.interval_mem_evaluate_iff (Expression.evaluate_of_keep hkeep) ⟨i.1, i.2, []⟩
    exact haccepts.trans (hasks.acceptsLast_iff hnames _)
  · intro s hs
    have hfind := SpanSet.find?_eq_some_iff.2 ⟨hasks.keep_subset h s hs, rfl⟩
    rw [Registry.find?_allSpans, Option.map_eq_some_iff] at hfind
    obtain ⟨last, hlast, hspan⟩ := hfind
    exact ⟨last, Registry.last?_eq_some_iff.1 hlast, hspan⟩

end Leaf

/-! ## Conditions in the middle of an evaluation -/

namespace Expression

/-- The leaves are among the nodes, wherever they stand. -/
theorem leaf_mem_postorder {e : Expression} {l : Leaf} : .leaf l ∈ e.postorder ↔ l ∈ e.leaves := by
  induction e with
  | leaf k => simp [postorder, leaves]
  | group op first rest ih =>
    simp only [postorder_group, leaves_group, List.mem_append, List.mem_flatMap, List.mem_singleton,
      reduceCtorEq, or_false]
    exact exists_congr fun part => and_congr_right fun hpart => ih part hpart

/-- The step of a leaf shows what the leaf keeps of the spans of all matches. -/
theorem step_of_leaf {ms : List Match} {allowExec : Bool} {e : Expression} {kept : SpanSet}
    {trace : Trace} {l : Leaf} {k : Nat}
    (h : (e.evaluate ⟨.ofMatches ms, allowExec⟩).result = .ok (kept, trace))
    (hk : e.postorder[k]? = some (Expression.leaf l)) :
    ∃ (step : Step) (leafKept : SpanSet), trace.steps[k]? = some step ∧
      step.filter = l.operator.displayName ∧
      (l.keep ⟨.ofMatches ms, allowExec⟩ (Registry.ofMatches ms).allSpans).result = .ok leafKept ∧
      step.spans = leafKept.spans := by
  rw [result_evaluate, Outcome.map_eq_ok_iff] at h
  obtain ⟨⟨_, steps⟩, hkeep, htrace⟩ := h
  obtain ⟨-, rfl⟩ := Prod.mk.inj htrace
  obtain ⟨step, hstep, hrecords⟩ :=
    Outcome.getElem?_of_forall₂ (records_of_logs (logs_of_keep hkeep).1) hk
  obtain ⟨leafKept, _, halone, hspans⟩ := hrecords.alone
  rw [result_evaluate, Outcome.map_eq_ok_iff] at halone
  obtain ⟨⟨_, _⟩, hleaf, hpair⟩ := halone
  obtain ⟨rfl, -⟩ := Prod.mk.inj hpair
  exact ⟨step, _, hstep, hrecords.filter, (keep_leaf_eq_ok_iff.1 hleaf).1, hspans⟩

end Expression

/-- Where spans know the names of their matches, a condition on a metavariable keeps an interval just
    if the last match of the interval binds the name and some match of it, of any pattern, binds the
    name to a text that passes.  This is so when the condition is evaluated over the spans of all
    matches; and it is so at any depth of any expression, where the step of the condition shows it. -/
theorem Leaf.Asks.keeps_iff {l : Leaf} {name : String} {p : String → Prop} (hnames : KnowOwnNames ms)
    (hasks : l.Asks name p) (allowExec : Bool) :
    (∀ kept, (l.keep ⟨.ofMatches ms, allowExec⟩ (Registry.ofMatches ms).allSpans).result = .ok kept →
      (∀ i, i ∈ kept.intervals ↔ KeepsAt ms name p i) ∧
        ∀ s ∈ kept.spans, ∃ last, ComesLast ms s.interval last ∧ last.span = s) ∧
    ∀ (e : Expression) (kept : SpanSet) (trace : Trace),
      (e.evaluate ⟨.ofMatches ms, allowExec⟩).result = .ok (kept, trace) →
      (l ∈ e.leaves → ∃ k : Nat, e.postorder[k]? = some (Expression.leaf l)) ∧
      ∀ k : Nat, e.postorder[k]? = some (Expression.leaf l) →
        ∃ step : Step, trace.steps[k]? = some step ∧ step.filter = l.operator.displayName ∧
          (∀ i, i ∈ step.intervals ↔ KeepsAt ms name p i) ∧
          ∀ s ∈ step.spans, ∃ last, ComesLast ms s.interval last ∧ last.span = s := by
  refine ⟨fun kept h => hasks.keep_iff hnames h, fun e kept trace h => ⟨?_, fun k hk => ?_⟩⟩
  · intro hl
    exact List.mem_iff_getElem?.1 (Expression.leaf_mem_postorder.2 hl)
  · obtain ⟨step, leafKept, hstep, hfilter, hleaf, hspans⟩ := Expression.step_of_leaf h hk
    obtain ⟨hintervals, hlast⟩ := hasks.keep_iff hnames hleaf
    refine ⟨step, hstep, hfilter, ?_, ?_⟩
    · rw [Step.intervals, hspans]
      exact hintervals
    · rw [hspans]
      exact hlast

/-- A match that binds one name. -/
def Match.ofBinding (id : String) (start stop : Nat) (name text : String) : Match :=
  .ofBindings id start stop [(name, .ofText text)]

/-- Three intervals with two matches each.  Of the first one the last match binds nothing, and of the
    third one it binds a text that is no number. -/
def doubledMatches : List Match :=
  [.bare "q" 0 5, .ofBinding "p" 0 5 "$X" "7", .bare "p" 6 8, .ofBinding "q" 6 8 "$X" "12",
    .ofBinding "q" 10 12 "$X" "x", .ofBinding "p" 10 12 "$X" "9"]

/-- Is the name bound to a number other than zero? -/
def nonzero : MetavariableCondition := ⟨"$X", none, some "$X", none, none⟩

def nonzeroLeaf : Leaf := ⟨.metavariableComparison, none, some (.record nonzero)⟩

/-- The matches of one pattern where the name is bound to a number other than zero. -/
def nonzeroMatches : Expression :=
  .group .all (.leaf ⟨.pattern, some "q", none⟩) [.group .either (.leaf nonzeroLeaf) []]

/-- The comparison as it is read. -/
theorem parse_nonzero : Predicate.parse "$X" = .ok ⟨"$X", .name "$X"⟩ := by
  have htrim : Text.trim "$X".toList = ['$', 'X'] := by decide +kernel
  have hlexemes : Predicate.lexemes ['$', 'X'] = .ok [⟨0, ['$', 'X'], .ident "$X"⟩] := rfl
  have hderives : Predicate.Derives .whole [.ident "$X"] (.name "$X") 1 :=
    .ofSigned (.ofPrimary .name)
  exact Predicate.parse_of_derives htrim hlexemes hderives (by decide)

/-- The leaf asks every match among the candidates. -/
theorem keep_nonzeroLeaf (registry : Registry) (candidates : SpanSet) :
    nonzeroLeaf.keep ⟨registry, false⟩ candidates =
      Filter.retainBound candidates "$X" registry.allMatches
        (Filter.comparisonHolds ⟨"$X", .name "$X"⟩ nonzero) := by
  have hsource : nonzero.comparison = some "$X" := rfl
  exact Filter.byComparison_of_parse hsource parse_nonzero

/-- The condition stands second in the record.  It drops the interval whose last match binds nothing,
    and keeps the one where the text of another match passes. -/
theorem Leaf.Asks.keeps_iff_doubled :
    ∃ kept trace, (nonzeroMatches.evaluate ⟨.ofMatches doubledMatches, false⟩).result =
        .ok (kept, trace) ∧
      ∃ step : Step, trace.steps[1]? = some step ∧ step.intervals = [(6, 8), (10, 12)] ∧
        KeepsAt doubledMatches "$X" nonzero.ComparisonHolds (10, 12) ∧
        ¬ KeepsAt doubledMatches "$X" nonzero.ComparisonHolds (0, 5) := by
  have hnames : KnowOwnNames doubledMatches := by
    refine knowOwnNames_of_ofBindings fun m hm => ?_
    simp only [doubledMatches, List.mem_cons, List.not_mem_nil, or_false] at hm
    rcases hm with rfl | rfl | rfl | rfl | rfl | rfl <;> exact ⟨_, _, _, _, rfl⟩
  have hasks : nonzeroLeaf.Asks "$X" nonzero.ComparisonHolds :=
    .comparison (c := nonzero) rfl rfl
  have hsteps : (nonzeroMatches.evaluate ⟨.ofMatches doubledMatches, false⟩).result.toOption.map
      (fun outcome => outcome.2.steps.map Step.intervals) =
      some [[(0, 5), (6, 8), (10, 12)], [(6, 8), (10, 12)], [(6, 8), (10, 12)],
        [(6, 8), (10, 12)]] := by
    rw [Expression.evaluate, nonzeroMatches]
    simp only [Expression.keep, keepParts, keep_nonzeroLeaf]
    decide +kernel
  cases h : (nonzeroMatches.evaluate ⟨.ofMatches doubledMatches, false⟩).result with
  | error fault =>
    rw [h] at hsteps
    cases hsteps
  | ok outcome =>
    obtain ⟨kept, trace⟩ := outcome
    rw [h] at hsteps
    have hintervals := congrArg (·[1]?) (Option.some.inj hsteps)
    obtain ⟨step, hstep, -, hkeeps, -⟩ :=
      ((Leaf.Asks.keeps_iff hnames hasks false).2 nonzeroMatches kept trace h).2 1 rfl
    rw [List.getElem?_map, hstep] at hintervals
    have hshown : step.intervals = [(6, 8), (10, 12)] := Option.some.inj hintervals
    rw [hshown] at hkeeps
    refine ⟨kept, trace, rfl, step, hstep, hshown, (hkeeps (10, 12)).1 (by decide), fun hnone => ?_⟩
    exact absurd ((hkeeps (0, 5)).2 hnone) (by decide)

end RuleSieve
