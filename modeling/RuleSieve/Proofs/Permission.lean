/-
  Rules that run predicates, where predicates may not run.

  Whether a rule runs predicates is told by a look at its expression, before any match is known
  (`needsExec`).  Evaluation finds out on its own, at each leaf.  The two agree
  (`evaluate_permission`): a rule that runs no predicates takes no notice of the permission, and one
  that does has no result without it, wherever the leaf stands and whatever it carries.
-/
import RuleSieve.Proofs.Causes

namespace RuleSieve

open Outcome (fault?)

variable {registry : Registry} {candidates : SpanSet} {ms : List Match} {allowExec : Bool}

/-! ## Where the refusal comes from -/

namespace Leaf

variable {l : Leaf}

/-- Only a leaf with a predicate asks for permission. -/
theorem keep_eq_of_ne (h : l.operator ≠ .patternWhere) (allowExec allowExec' : Bool) :
    l.keep ⟨registry, allowExec⟩ candidates = l.keep ⟨registry, allowExec'⟩ candidates := by
  unfold keep
  cases hop : l.operator with
  | patternWhere => exact absurd hop h
  | _ => rfl

/-- Without permission a leaf with a predicate is refused before anything else is looked at. -/
theorem keep_refused (h : l.operator = .patternWhere) :
    l.keep ⟨registry, false⟩ candidates = .ofExcept (.error .executionNotAllowed) := by
  simp [keep, h]

theorem keep_eq_refused_iff {env : Surroundings} (candidates : SpanSet) :
    (l.keep env candidates).result = .error .executionNotAllowed ↔
      l.operator = .patternWhere ∧ env.allowExec = false := by
  constructor
  · intro h
    cases keep_fails h with
    | refused hop hallow => exact ⟨hop, hallow⟩
  · rintro ⟨hop, hallow⟩
    simp [keep, hop, hallow]

/-- The leaf without its operand, if that is a predicate. -/
def forgetPredicate (l : Leaf) : Leaf :=
  if l.operator = .patternWhere then { l with operand := none } else l

theorem keep_forgetPredicate (l : Leaf) :
    l.forgetPredicate.keep ⟨registry, false⟩ candidates = l.keep ⟨registry, false⟩ candidates := by
  unfold forgetPredicate
  split
  · next h =>
    rw [keep_refused h]
    exact keep_refused h
  · rfl

theorem step_forgetPredicate (env : Surroundings) (l : Leaf) (kept : SpanSet) :
    l.forgetPredicate.step env kept = l.step env kept := by
  unfold forgetPredicate
  split <;> rfl

end Leaf

/-! ## Expressions -/

namespace Expression

mutual

/-- The expression with each leaf put in the place of another one. -/
def mapLeaves (f : Leaf → Leaf) : Expression → Expression
  | .leaf l => .leaf (f l)
  | .group op first rest => .group op (first.mapLeaves f) (mapLeavesOfParts f rest)

/-- Several expressions with their leaves put in the place of others. -/
def mapLeavesOfParts (f : Leaf → Leaf) : List Expression → List Expression
  | [] => []
  | part :: parts => part.mapLeaves f :: mapLeavesOfParts f parts

end

theorem mapLeavesOfParts_eq (f : Leaf → Leaf) (parts : List Expression) :
    mapLeavesOfParts f parts = parts.map (mapLeaves f) :=
  map_of_cons rfl (fun _ _ => rfl) parts

theorem mapLeaves_id (e : Expression) : e.mapLeaves id = e := by
  induction e with
  | leaf l => rw [mapLeaves, id]
  | group op first rest ih =>
    have hrest : rest.map (mapLeaves id) = rest := by
      have hpart : ∀ part ∈ rest, part.mapLeaves id = id part :=
        fun part hpart => ih part (List.mem_cons_of_mem _ hpart)
      rw [List.map_congr_left hpart, List.map_id]
    rw [mapLeaves, mapLeavesOfParts_eq, hrest, ih first List.mem_cons_self]

/-- Parts that do the same one by one do the same together. -/
theorem keepParts_map {env env' : Surroundings} {g : Expression → Expression}
    {parts : List Expression}
    (h : ∀ part ∈ parts, (g part).keep env candidates = part.keep env' candidates) :
    keepParts env candidates (parts.map g) = keepParts env' candidates parts := by
  induction parts with
  | nil => rw [List.map_nil, keepParts, keepParts]
  | cons part parts ih =>
    obtain ⟨hpart, hparts⟩ := List.forall_mem_cons.1 h
    rw [List.map_cons, keepParts, keepParts, hpart, ih hparts]

/-- Leaves that do the same in their surroundings can stand in the place of each other. -/
theorem keep_mapLeaves {env env' : Surroundings} {f : Leaf → Leaf} {e : Expression}
    (h : ∀ l ∈ e.leaves, (leaf (f l)).keep env candidates = (leaf l).keep env' candidates) :
    (e.mapLeaves f).keep env candidates = e.keep env' candidates := by
  induction e with
  | leaf l =>
    rw [mapLeaves]
    exact h l (by rw [leaves]; exact List.mem_singleton_self l)
  | group op first rest ih =>
    have hparts : ∀ part ∈ first :: rest,
        (part.mapLeaves f).keep env candidates = part.keep env' candidates := by
      intro part hpart
      refine ih part hpart fun l hl => h l ?_
      rw [leaves_group]
      exact List.mem_flatMap.2 ⟨part, hpart, hl⟩
    obtain ⟨hfirst, hrest⟩ := List.forall_mem_cons.1 hparts
    rw [mapLeaves, mapLeavesOfParts_eq, keep, keep, hfirst, keepParts_map hrest]

/-! ## The static look at an expression -/

/-- The listing tells whether a leaf runs a predicate. -/
theorem usesPredicates_iff {e : Expression} :
    e.usesPredicates = true ↔ ∃ l ∈ e.leaves, l.operator = .patternWhere := by
  have hnodes : (∃ node ∈ e.nodes, node.operator = .leaf .patternWhere) ↔
      ∃ l ∈ e.leaves, l.operator = .patternWhere :=
    exists_mem_nodesFrom_iff (fun l depth => by simp) (fun op depth => by simp) e 0
  rw [← hnodes]
  simp [usesPredicates]

/-! ## Evaluation with and without permission -/

/-- Without predicates the permission makes no difference. -/
theorem evaluate_eq_of_not_usesPredicates {e : Expression} (h : e.usesPredicates = false)
    (allowExec allowExec' : Bool) :
    e.evaluate ⟨registry, allowExec⟩ = e.evaluate ⟨registry, allowExec'⟩ := by
  have hleaves : ∀ l ∈ e.leaves, l.operator ≠ .patternWhere := by
    intro l hl hop
    rw [usesPredicates_iff.2 ⟨l, hl, hop⟩] at h
    cases h
  have hkeep : (e.mapLeaves id).keep ⟨registry, allowExec⟩ registry.allSpans =
      e.keep ⟨registry, allowExec'⟩ registry.allSpans := by
    refine keep_mapLeaves fun l hl => ?_
    rw [id, keep, keep, Leaf.keep_eq_of_ne (hleaves l hl) allowExec allowExec']
    rfl
  rw [mapLeaves_id] at hkeep
  simp only [evaluate, hkeep]

/-- The two expressions differ in nothing but their predicates: in the operands of the leaves that run
    one. -/
def SameButPredicates (e e' : Expression) : Prop :=
  e.mapLeaves Leaf.forgetPredicate = e'.mapLeaves Leaf.forgetPredicate

/-- Without permission nobody looks at the predicates. -/
theorem evaluate_congr_predicates {e e' : Expression} (h : e.SameButPredicates e') :
    e.evaluate ⟨registry, false⟩ = e'.evaluate ⟨registry, false⟩ := by
  have hforget : ∀ e : Expression, (e.mapLeaves Leaf.forgetPredicate).keep ⟨registry, false⟩
      registry.allSpans = e.keep ⟨registry, false⟩ registry.allSpans := by
    intro e
    refine keep_mapLeaves fun l _ => ?_
    rw [keep, keep, Leaf.keep_forgetPredicate]
    simp only [Leaf.step_forgetPredicate]
  have hkeep : e.keep ⟨registry, false⟩ registry.allSpans =
      e'.keep ⟨registry, false⟩ registry.allSpans := by
    rw [← hforget e, ← hforget e', h]
  simp only [evaluate, hkeep]

theorem evaluate_leaf_eq_refused_iff {env : Surroundings} {l : Leaf} :
    ((leaf l).evaluate env).result = .error .executionNotAllowed ↔
      l.operator = .patternWhere ∧ env.allowExec = false := by
  rw [← Leaf.keep_eq_refused_iff env.registry.allSpans,
    ← Outcome.fault?_eq_some_iff, result_evaluate, Outcome.fault?_map, result_keep_leaf,
    Outcome.fault?_map, Outcome.fault?_eq_some_iff]

/-- Only an expression that runs a predicate is refused. -/
theorem usesPredicates_of_refused {env : Surroundings} {e : Expression}
    (h : (e.evaluate env).result = .error .executionNotAllowed) : e.usesPredicates = true := by
  rw [← Outcome.fault?_eq_some_iff, fault?_evaluate] at h
  obtain ⟨l, hl, hrefused⟩ := List.exists_of_findSome?_eq_some h
  obtain ⟨hop, -⟩ := evaluate_leaf_eq_refused_iff.1 (Outcome.fault?_eq_some_iff.1 hrefused)
  exact usesPredicates_iff.2 ⟨l, hl, hop⟩

/-- Without permission an expression is refused just if nothing fails before its first predicate. -/
theorem evaluate_eq_refused_iff {e : Expression} {before after : List Leaf} {l : Leaf}
    (hleaves : e.leaves = before ++ l :: after) (hop : l.operator = .patternWhere)
    (hbefore : ∀ k ∈ before, k.operator ≠ .patternWhere) :
    (e.evaluate ⟨registry, false⟩).result = .error .executionNotAllowed ↔
      ∀ k ∈ before, ∃ outcome, ((leaf k).evaluate ⟨registry, false⟩).result = .ok outcome := by
  have hl : fault? ((leaf l).evaluate ⟨registry, false⟩).result = some .executionNotAllowed :=
    Outcome.fault?_eq_some_iff.2 (evaluate_leaf_eq_refused_iff.2 ⟨hop, rfl⟩)
  rw [← Outcome.fault?_eq_some_iff, fault?_evaluate, hleaves, List.findSome?_append,
    List.findSome?_cons, hl]
  cases hfirst : before.findSome? fun k =>
      fault? ((leaf k).evaluate ⟨registry, false⟩).result with
  | none =>
    rw [List.findSome?_eq_none_iff] at hfirst
    exact iff_of_true rfl fun k hk => Outcome.fault?_eq_none_iff.1 (hfirst k hk)
  | some fault =>
    -- an earlier leaf fails, and not for want of permission
    obtain ⟨k, hk, hfault⟩ := List.exists_of_findSome?_eq_some hfirst
    have hne : fault ≠ .executionNotAllowed := by
      rintro rfl
      exact hbefore k hk (evaluate_leaf_eq_refused_iff.1 (Outcome.fault?_eq_some_iff.1 hfault)).1
    refine iff_of_false (fun h => hne (Option.some.inj h)) fun hok => ?_
    obtain ⟨outcome, houtcome⟩ := hok k hk
    rw [houtcome] at hfault
    cases hfault

/-- An expression that runs a predicate has no result without permission. -/
theorem evaluate_fails_of_usesPredicates (registry : Registry) {e : Expression}
    (h : e.usesPredicates = true) : ∃ fault, (e.evaluate ⟨registry, false⟩).result = .error fault := by
  obtain ⟨l, hl, hop⟩ := usesPredicates_iff.1 h
  rw [evaluate_fails_iff]
  exact ⟨l, hl, _, evaluate_leaf_eq_refused_iff.2 ⟨hop, rfl⟩⟩

end Expression

/-! ## Rules -/

namespace Rule

variable {rule : Rule}

/-- Nothing of a rule but its expression depends on the permission. -/
theorem evaluate_congr_keep {expression : Option Expression} {allowExec allowExec' : Bool}
    (h : ({ rule with expression } : Rule).keep ms allowExec = rule.keep ms allowExec') :
    ({ rule with expression } : Rule).evaluate ms allowExec = rule.evaluate ms allowExec' := by
  unfold evaluate judge
  rw [h]
  rfl

theorem needsExec_iff :
    rule.needsExec = true ↔
      rule.mode = .search ∧ ∃ e, rule.expression = some e ∧ e.usesPredicates = true := by
  unfold needsExec
  cases rule.mode <;> simp [Option.any_eq_true]

/-- A rule is refused for its expression only. -/
theorem evaluate_eq_refused_iff {id : String} :
    rule.evaluate ms allowExec = .error ⟨id, .executionNotAllowed⟩ ↔
      id = rule.id ∧ rule.mode = .search ∧ ∃ e, rule.expression = some e ∧
        (e.evaluate ⟨.ofMatches ms, allowExec⟩).result = .error .executionNotAllowed := by
  rw [evaluate_eq_error_iff, ← fails_iff]
  refine and_congr_right fun _ => ⟨fun h => ?_, ?_⟩
  · cases h with
    | expression hmode he hfault => exact ⟨hmode, _, he, hfault⟩
    | fix _ _ _ hfault =>
      obtain ⟨name, hname⟩ := Template.fillFix_fails hfault
      cases hname
  · rintro ⟨hmode, e, he, hfault⟩
    exact .expression hmode he hfault

theorem keep_eq_of_not_needsExec (h : rule.needsExec = false) (allowExec allowExec' : Bool) :
    rule.keep ms allowExec = rule.keep ms allowExec' := by
  unfold keep
  cases hmode : rule.mode with
  | taint => rfl
  | search =>
    cases he : rule.expression with
    | none => simp only [neededExpression, he]; rfl
    | some e =>
      have hpredicates : e.usesPredicates = false := by
        rw [Bool.eq_false_iff]
        intro hp
        rw [needsExec_iff.2 ⟨hmode, e, he, hp⟩] at h
        cases h
      have heval : e.evaluate ⟨.ofMatches ms, allowExec⟩ = e.evaluate ⟨.ofMatches ms, allowExec'⟩ :=
        e.evaluate_eq_of_not_usesPredicates hpredicates allowExec allowExec'
      simp only [neededExpression, he]
      show Noted.andThen _ _ = Noted.andThen _ _
      simp only [Option.elim, Noted.ofExcept, Noted.andThen, heval]

theorem keep_congr_predicates {e e' : Expression} (he : rule.expression = some e)
    (h : e'.SameButPredicates e) :
    ({ rule with expression := some e' } : Rule).keep ms false = rule.keep ms false := by
  unfold keep
  cases hmode : rule.mode with
  | taint => rfl
  | search =>
    have heval : e'.evaluate ⟨.ofMatches ms, false⟩ = e.evaluate ⟨.ofMatches ms, false⟩ :=
      e'.evaluate_congr_predicates h
    simp only [neededExpression, he]
    show Noted.andThen _ _ = Noted.andThen _ _
    simp only [Option.elim, Noted.ofExcept, Noted.andThen, heval]

/-- Whether a rule needs permission to run predicates is told by its expression.  If it does not, the
    permission makes no difference, and the rule is not refused.  If it does, there is no result
    without permission: the rule is refused if nothing fails to the left of the first leaf that runs
    a predicate, and what these leaves carry makes no difference. -/
theorem evaluate_permission (rule : Rule) (ms : List Match) :
    (rule.needsExec = false →
      rule.evaluate ms false = rule.evaluate ms true ∧
      ∀ allowExec id, rule.evaluate ms allowExec ≠ .error ⟨id, .executionNotAllowed⟩) ∧
    (rule.needsExec = true →
      (∀ outcome, rule.evaluate ms false ≠ .ok outcome) ∧
      ∀ e, rule.expression = some e →
        (∀ before l after, e.leaves = before ++ l :: after → l.operator = .patternWhere →
          (∀ k ∈ before, k.operator ≠ .patternWhere) →
          (rule.evaluate ms false = .error ⟨rule.id, .executionNotAllowed⟩ ↔
            ∀ k ∈ before, ∃ outcome,
              ((Expression.leaf k).evaluate ⟨.ofMatches ms, false⟩).result = .ok outcome)) ∧
        ∀ e', e'.SameButPredicates e →
          ({ rule with expression := some e' } : Rule).evaluate ms false =
            rule.evaluate ms false) := by
  refine ⟨fun hneeds => ⟨?_, ?_⟩, fun hneeds => ⟨?_, fun e he => ⟨?_, ?_⟩⟩⟩
  · exact evaluate_congr_keep (keep_eq_of_not_needsExec hneeds false true)
  · intro allowExec id h
    obtain ⟨-, hmode, e, he, hrefused⟩ := evaluate_eq_refused_iff.1 h
    have huses := Expression.usesPredicates_of_refused hrefused
    rw [needsExec_iff.2 ⟨hmode, e, he, huses⟩] at hneeds
    cases hneeds
  · intro outcome h
    obtain ⟨hmode, e, he, huses⟩ := needsExec_iff.1 hneeds
    obtain ⟨fault, hfault⟩ := Expression.evaluate_fails_of_usesPredicates (.ofMatches ms) huses
    have hkeep := keep_eq_error_iff.2 ⟨hmode, .inr ⟨e, he, hfault⟩⟩
    have hfails : rule.evaluate ms false = .error ⟨rule.id, fault⟩ :=
      evaluate_eq_error_iff.2 ⟨rfl, .inl hkeep⟩
    rw [hfails] at h
    cases h
  · intro before l after hleaves hop hbefore
    obtain ⟨hmode, -⟩ := needsExec_iff.1 hneeds
    rw [← Expression.evaluate_eq_refused_iff hleaves hop hbefore, evaluate_eq_refused_iff]
    simp [hmode, he]
  · intro e' h
    exact evaluate_congr_keep (keep_congr_predicates he h)

/-- A pattern, or another one with a predicate beside it. -/
def besidePredicate (operand : Option Operand) : Expression :=
  .group .either (.leaf ⟨.pattern, some "p", none⟩)
    [.group .all (.leaf ⟨.patternInside, some "q", none⟩) [.leaf ⟨.patternWhere, none, operand⟩]]

/-- A rule that keeps all matches runs no predicate, whatever its expression says; one that searches
    is refused although every match satisfies the first part of its expression. -/
theorem evaluate_permission_beside :
    let taint : Rule :=
      { Rule.taint "t" "$X" with expression := some (besidePredicate (some (.text "$X == 'a'"))) }
    let search := Rule.search "s" (besidePredicate (some (.text "$X == 'a'"))) "$X"
    let ms := [(Match.bare "p" 0 5).bind "$X" "a", .bare "p" 8 9]
    taint.needsExec = false ∧ taint.evaluate ms false = taint.evaluate ms true ∧
      search.needsExec = true ∧
      search.evaluate ms false = .error ⟨"s", .executionNotAllowed⟩ ∧
      ({ search with expression := some (besidePredicate none) } : Rule).evaluate ms false =
        search.evaluate ms false := by
  intro taint search ms
  have htaint : taint.needsExec = false := rfl
  have hsearch : search.needsExec = true := rfl
  obtain ⟨-, hexpression⟩ := (evaluate_permission search ms).2 hsearch
  obtain ⟨hrefused, hoperand⟩ := hexpression _ rfl
  refine ⟨htaint, ((evaluate_permission taint ms).1 htaint).1, hsearch, ?_, hoperand _ rfl⟩
  refine (hrefused [⟨.pattern, some "p", none⟩, ⟨.patternInside, some "q", none⟩]
    ⟨.patternWhere, none, some (.text "$X == 'a'")⟩ [] rfl rfl (by decide)).2 ?_
  intro k hk
  rcases List.mem_cons.1 hk with rfl | hk
  · exact ⟨_, rfl⟩
  · obtain rfl := List.mem_singleton.1 hk
    exact ⟨_, rfl⟩

end Rule

end RuleSieve
