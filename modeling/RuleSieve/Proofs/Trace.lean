/-
  The record of an evaluation.

  The record has one step for each node of the expression, after the steps of the node's parts
  (`Expression.postorder`).  A step tells what its node keeps when it is evaluated alone over the spans
  of all matches (`Records`), although the steps were written in the middle of a larger evaluation:
  every part of a group is given the same candidates as the group, so the candidates at the root are
  those of every node.

  The record can be checked without evaluating anything (`Logs`): the steps before that of a group
  come in blocks, one for each part, each block ends with the step of its part, and the group keeps
  what some of these last steps show, or what all of them show.
-/
import RuleSieve.Proofs.Meaning

namespace RuleSieve

/-! ## What a record should hold -/

/-- The intervals that a step shows, in order. -/
def Step.intervals (step : Step) : List (Nat × Nat) := step.spans.map Span.interval

/-- What a name is bound to in the matches of a pattern, in their order; nothing without a pattern. -/
def boundIn (ms : List Match) (id : Option String) (name : String) : List Binding :=
  (ms.filter fun m => id = some m.patternId).flatMap fun m => Dict.valuesUnder name m.bindings

/-- The table has an entry for each name that is bound in the matches of the pattern, and it holds all
    that the name is bound to. -/
structure TellsBindings (ms : List Match) (id : Option String) (table : Dict (List Binding)) :
    Prop where
  sorted : table.Sorted
  find? : ∀ name, table.find? name =
    if boundIn ms id name = [] then none else some (boundIn ms id name)

/-- The step is the one of the node: it names the operator and the pattern, and it shows what the node
    keeps when it is evaluated alone.  Only leaves tell what the names of their pattern are bound to. -/
structure Records (ms : List Match) (allowExec : Bool) (node : Expression) (step : Step) : Prop where
  filter : step.filter = node.operator.displayName
  patternId : step.patternId = node.patternId
  ordered : step.spans.Pairwise Span.Before
  alone : ∃ kept trace, (node.evaluate ⟨.ofMatches ms, allowExec⟩).result = .ok (kept, trace) ∧
    step.spans = kept.spans
  leaf : ∀ l, node = .leaf l →
    ∃ table, step.bindings = some table ∧ TellsBindings ms l.patternId table
  group : ∀ op first rest, node = .group op first rest → step.bindings = none

/-- The steps end with one that shows the interval. -/
def EndsWith (i : Nat × Nat) (steps : List Step) : Prop :=
  ∃ last, steps.getLast? = some last ∧ i ∈ last.intervals

/-- The step of a group after the blocks of steps of its parts: it shows what some block ends with, or
    what all blocks end with. -/
def GroupOperator.Combines (op : GroupOperator) (step : Step) (blocks : List (List Step)) : Prop :=
  match op with
  | .either => ∀ i, i ∈ step.intervals ↔ ∃ block ∈ blocks, EndsWith i block
  | .all => ∀ i, i ∈ step.intervals ↔ ∀ block ∈ blocks, EndsWith i block

/-- The steps are those of the nodes of the expression: a block for each part, and then the step of
    the root. -/
inductive Logs (ms : List Match) (allowExec : Bool) : Expression → List Step → Prop
  | leaf {l : Leaf} {step : Step} (hstep : Records ms allowExec (.leaf l) step) :
      Logs ms allowExec (.leaf l) [step]
  | group {op : GroupOperator} {first : Expression} {rest : List Expression} {step : Step}
      {blocks : List (List Step)}
      (hparts : List.Forall₂ (Logs ms allowExec) (first :: rest) blocks)
      (hstep : Records ms allowExec (.group op first rest) step)
      (hcombines : op.Combines step blocks) :
      Logs ms allowExec (.group op first rest) (blocks.flatten ++ [step])

/-- The table tells of each pattern with a match the different intervals of its matches, in order. -/
structure TellsSpans (ms : List Match) (table : Dict (List Span)) : Prop where
  sorted : table.Sorted
  find?_eq_none_iff : ∀ id, table.find? id = none ↔ ∀ m ∈ ms, m.patternId ≠ id
  ordered : ∀ id spans, table.find? id = some spans → spans.Pairwise Span.Before
  exists_match : ∀ id spans, table.find? id = some spans →
    ∀ s ∈ spans, ∃ m ∈ ms, m.patternId = id ∧ m.span = s
  exists_span : ∀ id spans, table.find? id = some spans →
    ∀ m ∈ ms, m.patternId = id → ∃ s ∈ spans, s.interval = m.span.interval

/-! ## Tables of a registry -/

namespace Registry

variable {ms : List Match}

theorem valuesUnder_flatMap (name : String) (ms : List Match) :
    Dict.valuesUnder name (ms.flatMap (·.bindings)) =
      ms.flatMap fun m => Dict.valuesUnder name m.bindings := by
  rw [Dict.valuesUnder, List.filter_flatMap, List.map_flatMap]
  rfl

theorem boundIn_some (ms : List Match) (id name : String) :
    boundIn ms (some id) name =
      (ms.filter (·.patternId == id)).flatMap fun m => Dict.valuesUnder name m.bindings := by
  have hsame : ms.filter (fun m => some id = some m.patternId) = ms.filter (·.patternId == id) := by
    refine List.filter_congr fun m _ => ?_
    rw [Bool.eq_iff_iff, decide_eq_true_eq, beq_iff_eq, Option.some.injEq, eq_comm]
  rw [boundIn, hsame]

/-- The table of a leaf's names tells what they are bound to. -/
theorem bindingsFor_tells (ms : List Match) (id : Option String) :
    TellsBindings ms id ((ofMatches ms).bindingsFor id) := by
  cases id with
  | none =>
    have hnone : ∀ name, boundIn ms none name = [] := by
      intro name
      simp [boundIn]
    refine ⟨List.Pairwise.nil, fun name => ?_⟩
    rw [if_pos (hnone name)]
    rfl
  | some id =>
    -- the bindings of all matches of the pattern are pushed one by one into an empty table
    have hfold : (ofMatches ms).bindingsFor (some id) =
        (((ofMatches ms).matchesFor id).flatMap (·.bindings)).foldl Dict.push [] := rfl
    have hunder : ∀ name, Dict.valuesUnder name
        ((ms.filter (·.patternId == id)).flatMap (·.bindings)) = boundIn ms (some id) name := by
      intro name
      rw [valuesUnder_flatMap, boundIn_some]
    rw [hfold, matchesFor_ofMatches]
    refine ⟨Dict.Sorted.foldl_push _ List.Pairwise.nil, fun name => ?_⟩
    rw [Dict.find?_foldl_push name _ List.Pairwise.nil, hunder]
    rfl

/-- The table that a record starts with makes a set of the spans of each group. -/
theorem spansByPattern_eq (r : Registry) :
    r.spansByPattern = r.groups.map fun entry =>
      (entry.1, (SpanSet.ofList (entry.2.map (·.span))).spans) := rfl

theorem spansByPattern_sorted (ms : List Match) : (ofMatches ms).spansByPattern.Sorted := by
  rw [spansByPattern_eq]
  exact (groups_sorted ms).mapValues fun group : List Match =>
    (SpanSet.ofList (group.map (·.span))).spans

theorem find?_spansByPattern (ms : List Match) (id : String) :
    (ofMatches ms).spansByPattern.find? id =
      if ms.filter (·.patternId == id) = [] then none
      else some (SpanSet.ofList ((ms.filter (·.patternId == id)).map (·.span))).spans := by
  rw [spansByPattern_eq,
    Dict.find?_mapValues fun group : List Match => (SpanSet.ofList (group.map (·.span))).spans,
    find?_groups]
  split <;> rfl

/-- The table that a record starts with tells the spans of each pattern. -/
theorem spansByPattern_tells (ms : List Match) :
    TellsSpans ms (ofMatches ms).spansByPattern := by
  have hfound : ∀ {id spans}, (ofMatches ms).spansByPattern.find? id = some spans →
      spans = (SpanSet.ofList ((ms.filter (·.patternId == id)).map (·.span))).spans := by
    intro id spans h
    rw [find?_spansByPattern] at h
    split at h
    · cases h
    · exact (Option.some.inj h).symm
  refine ⟨spansByPattern_sorted ms, fun id => ?_, ?_, ?_, ?_⟩
  · rw [find?_spansByPattern]
    simp
  · intro id spans h
    rw [hfound h]
    exact SpanSet.ordered _
  · intro id spans h s hs
    rw [hfound h] at hs
    obtain ⟨m, hm, rfl⟩ := List.mem_map.1 (SpanSet.mem_of_mem_ofList hs)
    obtain ⟨hm, hid⟩ := List.mem_filter.1 hm
    exact ⟨m, hm, beq_iff_eq.1 hid, rfl⟩
  · intro id spans h m hm hid
    rw [hfound h]
    refine SpanSet.mem_intervals.1 (SpanSet.mem_intervals_ofList.2 ⟨m.span, ?_, rfl⟩)
    exact List.mem_map_of_mem (List.mem_filter.2 ⟨hm, beq_iff_eq.2 hid⟩)

end Registry

/-! ## What groups keep, as the record shows it -/

namespace GroupOperator

variable {candidates : SpanSet} {parts : List SpanSet} {i : Nat × Nat}

/-- The intervals of alternatives are those of some part, if no part keeps what is no candidate. -/
theorem mem_combine_either
    (h : ∀ part ∈ parts, ∀ i ∈ part.intervals, i ∈ candidates.intervals) :
    i ∈ (GroupOperator.either.combine candidates parts).intervals ↔
      ∃ part ∈ parts, i ∈ part.intervals := by
  have hfilter : candidates.Selects (fun s => ∃ part ∈ parts, s.interval ∈ part.intervals)
      (GroupOperator.either.combine candidates parts) := by
    refine SpanSet.selects_filter fun s _ => ?_
    simp only [List.any_eq_true, SpanSet.contains_iff]
  rw [hfilter i]
  constructor
  · rintro ⟨s, -, rfl, hpart⟩
    exact hpart
  · rintro ⟨part, hpart, hi⟩
    obtain ⟨s, hs, rfl⟩ := SpanSet.mem_intervals.1 (h part hpart i hi)
    exact ⟨s, hs, rfl, part, hpart, hi⟩

/-- The intervals of a conjunction are those of all parts, if there is a part and none keeps what is
    no candidate. -/
theorem mem_combine_all (hne : parts ≠ [])
    (h : ∀ part ∈ parts, ∀ i ∈ part.intervals, i ∈ candidates.intervals) :
    i ∈ (GroupOperator.all.combine candidates parts).intervals ↔
      ∀ part ∈ parts, i ∈ part.intervals := by
  have hfilter : candidates.Selects (fun s => ∀ part ∈ parts, s.interval ∈ part.intervals)
      (GroupOperator.all.combine candidates parts) := by
    refine SpanSet.selects_filter fun s _ => ?_
    simp only [List.all_eq_true, SpanSet.contains_iff]
  rw [hfilter i]
  constructor
  · rintro ⟨s, -, rfl, hparts⟩
    exact hparts
  · intro hparts
    -- the first part tells that there is a candidate of the interval
    obtain ⟨part, hpart⟩ := List.exists_mem_of_ne_nil parts hne
    obtain ⟨s, hs, rfl⟩ := SpanSet.mem_intervals.1 (h part hpart i (hparts part hpart))
    exact ⟨s, hs, rfl, hparts⟩

/-- The step of a group combines the last steps of its parts. -/
theorem combines_combine {op : GroupOperator} {outcomes : List (SpanSet × List Step)}
    (hne : outcomes ≠ [])
    (hsub : ∀ outcome ∈ outcomes, ∀ i ∈ outcome.1.intervals, i ∈ candidates.intervals)
    (hlast : ∀ outcome ∈ outcomes, ∃ last, outcome.2.getLast? = some last ∧
      last.spans = outcome.1.spans) :
    op.Combines (op.step (op.combine candidates (outcomes.map (·.1)))) (outcomes.map (·.2)) := by
  have hends : ∀ outcome ∈ outcomes, ∀ i, EndsWith i outcome.2 ↔ i ∈ outcome.1.intervals := by
    intro outcome houtcome i
    obtain ⟨last, hsteps, hspans⟩ := hlast outcome houtcome
    simp only [EndsWith, hsteps, Step.intervals, SpanSet.intervals, hspans, Option.some.injEq,
      exists_eq_left']
  have hsub' : ∀ part ∈ outcomes.map (·.1), ∀ i ∈ part.intervals, i ∈ candidates.intervals :=
    List.forall_mem_map.2 hsub
  cases op with
  | either =>
    intro i
    have hstep := mem_combine_either (i := i) hsub'
    simp only [List.mem_map, exists_exists_and_eq_and] at hstep ⊢
    refine hstep.trans (exists_congr fun outcome => and_congr_right fun houtcome => ?_)
    exact (hends outcome houtcome i).symm
  | all =>
    intro i
    have hne' : outcomes.map (·.1) ≠ [] := by simpa using hne
    have hstep := mem_combine_all (i := i) hne' hsub'
    rw [List.forall_mem_map] at hstep ⊢
    refine hstep.trans (forall₂_congr fun outcome houtcome => ?_)
    exact (hends outcome houtcome i).symm

end GroupOperator

/-! ## Nodes after their parts -/

namespace Expression

mutual

/-- The nodes, each as the expression below it, and each after its parts from left to right. -/
def postorder : Expression → List Expression
  | .leaf l => [.leaf l]
  | .group op first rest => first.postorder ++ postorderOfParts rest ++ [.group op first rest]

/-- The nodes of several expressions, one after the other. -/
def postorderOfParts : List Expression → List Expression
  | [] => []
  | part :: parts => part.postorder ++ postorderOfParts parts

end

theorem postorderOfParts_eq (parts : List Expression) :
    postorderOfParts parts = parts.flatMap postorder :=
  flatMap_of_cons rfl (fun _ _ => rfl) parts

theorem postorder_group (op : GroupOperator) (first : Expression) (rest : List Expression) :
    (group op first rest).postorder =
      (first :: rest).flatMap postorder ++ [group op first rest] := by
  rw [postorder, postorderOfParts_eq, List.flatMap_cons]

/-- The listing that has groups before their parts is as long. -/
theorem length_postorder (e : Expression) (depth : Nat) :
    e.postorder.length = (e.nodesFrom depth).length := by
  induction e generalizing depth with
  | leaf l => rw [postorder, nodesFrom]; rfl
  | group op first rest ih =>
    have hparts : (first :: rest).map (fun part => part.postorder.length) =
        (first :: rest).map fun part => (part.nodesFrom (depth + 1)).length :=
      List.map_congr_left fun part hpart => ih part hpart (depth + 1)
    rw [postorder_group, nodesFrom_group, List.length_append, List.length_singleton,
      List.length_cons, List.length_flatMap, List.length_flatMap, hparts]

/-! ## The record of an evaluation -/

variable {ms : List Match} {allowExec : Bool} {e : Expression} {kept : SpanSet} {steps : List Step}

/-- A record that can be checked part by part has one step for each node. -/
theorem records_of_logs (h : Logs ms allowExec e steps) :
    List.Forall₂ (Records ms allowExec) e.postorder steps := by
  induction e generalizing steps with
  | leaf l =>
    cases h with
    | leaf hstep =>
      rw [postorder]
      exact .cons hstep .nil
  | group op first rest ih =>
    cases h with
    | @group _ _ _ step blocks hparts hstep hcombines =>
      have hblocks : List.Forall₂ (fun (part : Expression) block =>
          List.Forall₂ (Records ms allowExec) part.postorder block) (first :: rest) blocks :=
        ((List.forall₂_and_left _ _).2 ⟨ih, hparts⟩).imp fun _ _ hpart => hpart.1 hpart.2
      rw [postorder_group, List.flatMap_def]
      have hflat := List.rel_flatten (List.forall₂_map_left_iff.2 hblocks)
      exact List.rel_append hflat (.cons hstep .nil)

theorem evaluate_of_keep {env : Surroundings}
    (h : (e.keep env env.registry.allSpans).result = .ok (kept, steps)) :
    (e.evaluate env).result = .ok (kept, ⟨env.registry.spansByPattern, steps⟩) := by
  rw [result_evaluate, h]
  rfl

/-- What an expression keeps is some of the candidates. -/
theorem keep_subset {candidates : SpanSet}
    (h : (e.keep ⟨.ofMatches ms, allowExec⟩ candidates).result = .ok (kept, steps)) :
    ∀ i ∈ kept.intervals, i ∈ candidates.intervals := by
  intro i hi
  obtain ⟨s, hs, hsi, -⟩ := (keep_selects h i).1 hi
  exact SpanSet.mem_intervals.2 ⟨s, hs, hsi⟩

/-- Evaluation over the spans of all matches leaves a record that can be checked, and its last step
    shows what is kept. -/
theorem logs_of_keep (h : (e.keep ⟨.ofMatches ms, allowExec⟩ (Registry.ofMatches ms).allSpans).result =
      .ok (kept, steps)) :
    Logs ms allowExec e steps ∧ ∃ last, steps.getLast? = some last ∧ last.spans = kept.spans := by
  have halone := evaluate_of_keep h
  induction e generalizing kept steps with
  | leaf l =>
    obtain ⟨-, rfl⟩ := keep_leaf_eq_ok_iff.1 h
    refine ⟨.leaf ⟨rfl, rfl, kept.ordered, ⟨kept, _, halone, rfl⟩, ?_, ?_⟩, _, rfl, rfl⟩
    · rintro l' hl
      obtain rfl := Expression.leaf.inj hl
      exact ⟨_, rfl, Registry.bindingsFor_tells ms l.patternId⟩
    · rintro op first rest hgroup
      cases hgroup
  | group op first rest ih =>
    obtain ⟨outcomes, hparts, hkept, rfl⟩ := keep_group_eq_ok_iff.1 h
    have hlogs : List.Forall₂ (fun (part : Expression) (outcome : SpanSet × List Step) =>
        Logs ms allowExec part outcome.2 ∧
          ∃ last, outcome.2.getLast? = some last ∧ last.spans = outcome.1.spans)
        (first :: rest) outcomes :=
      ((List.forall₂_and_left _ _).2 ⟨ih, hparts⟩).imp
        fun _ _ hpart => hpart.1 hpart.2 (evaluate_of_keep hpart.2)
    have hne : outcomes ≠ [] := by
      rintro rfl
      cases hparts
    have hsub : ∀ outcome ∈ outcomes, ∀ i ∈ outcome.1.intervals,
        i ∈ (Registry.ofMatches ms).allSpans.intervals :=
      Outcome.forall_mem_of_forall₂ (hparts.imp fun _ _ hpart => keep_subset hpart)
    have hlast := Outcome.forall_mem_of_forall₂ (hlogs.imp fun _ _ hpart => hpart.2)
    have hrecord : Records ms allowExec (group op first rest) (op.step kept) := by
      refine ⟨rfl, rfl, kept.ordered, ⟨kept, _, halone, rfl⟩, ?_, ?_⟩
      · rintro l hleaf
        cases hleaf
      · intro _ _ _ _
        rfl
    refine ⟨?_, op.step kept, List.getLast?_concat, rfl⟩
    rw [List.flatMap_def]
    refine .group (List.forall₂_map_right_iff.2 (hlogs.imp fun _ _ hpart => hpart.1)) hrecord ?_
    rw [← hkept]
    exact GroupOperator.combines_combine hne hsub hlast

/-- The record of an evaluation has one step for each node, after those of the node's parts, and each
    shows what its node keeps when it is evaluated alone.  The steps of groups combine those of their
    parts, the last step shows what is kept, and the table at the start tells the spans of each
    pattern. -/
theorem evaluate_records {trace : Trace}
    (h : (e.evaluate ⟨.ofMatches ms, allowExec⟩).result = .ok (kept, trace)) :
    List.Forall₂ (Records ms allowExec) e.postorder trace.steps ∧
    trace.steps.length = e.nodes.length ∧
    Logs ms allowExec e trace.steps ∧
    (∃ last, trace.steps.getLast? = some last ∧ last.spans = kept.spans) ∧
    TellsSpans ms trace.initial := by
  rw [result_evaluate, Outcome.map_eq_ok_iff] at h
  obtain ⟨⟨kept', steps⟩, hkeep, htrace⟩ := h
  obtain ⟨rfl, rfl⟩ := Prod.mk.inj htrace
  obtain ⟨hlogs, hlast⟩ := logs_of_keep hkeep
  have hrecords := records_of_logs hlogs
  refine ⟨hrecords, ?_, hlogs, hlast, Registry.spansByPattern_tells ms⟩
  rw [← hrecords.length_eq]
  exact length_postorder e 0

/-- The record of an expression with a group inside a group. -/
theorem evaluate_records_calls :
    ∃ kept trace, (callExpression.evaluate ⟨.ofMatches callMatches, false⟩).result =
        .ok (kept, trace) ∧
      trace.steps.map (fun step => (step.filter, step.intervals)) =
        [("pattern", [(2, 5), (20, 25)]), ("pattern-inside", [(0, 10), (2, 5)]),
          ("pattern-not-regex", [(0, 10), (2, 5)]), ("pattern-either", [(0, 10), (2, 5)]),
          ("patterns", [(2, 5)])] ∧
      Logs callMatches false callExpression trace.steps ∧
      TellsSpans callMatches trace.initial := by
  have hsteps : (callExpression.evaluate ⟨.ofMatches callMatches, false⟩).result.toOption.map
      (fun outcome => outcome.2.steps.map fun step => (step.filter, step.intervals)) =
      some [("pattern", [(2, 5), (20, 25)]), ("pattern-inside", [(0, 10), (2, 5)]),
        ("pattern-not-regex", [(0, 10), (2, 5)]), ("pattern-either", [(0, 10), (2, 5)]),
        ("patterns", [(2, 5)])] := by rfl
  cases h : (callExpression.evaluate ⟨.ofMatches callMatches, false⟩).result with
  | error fault =>
    rw [h] at hsteps
    cases hsteps
  | ok outcome =>
    obtain ⟨kept, trace⟩ := outcome
    rw [h] at hsteps
    obtain ⟨-, -, hlogs, -, hinitial⟩ := evaluate_records h
    exact ⟨kept, trace, rfl, Option.some.inj hsteps, hlogs, hinitial⟩

end Expression

end RuleSieve
