/-
  Expressions as trees, and their evaluation part by part.

  The parts of a group are evaluated one after the other, each over the candidates of the group, so
  the outcome of a group is that of a traversal of its parts (`result_keep_group`).  A traversal ends
  with its first fault, and the leaves are where faults come from (`fault?_keep`).
-/
import RuleSieve.Evaluation
import RuleSieve.Proofs.Outcome
import RuleSieve.Proofs.SpanSet

namespace RuleSieve

open Outcome (fault?)

/-! ## Verdicts -/

namespace Outcome

variable {α : Type}

/-- The intervals that were kept, unless there was a fault. -/
def intervals? (outcome : Except Fault (SpanSet × α)) : Option (List (Nat × Nat)) :=
  outcome.toOption.map fun result => result.1.intervals

/-- The intervals of an outcome are those of what it keeps. -/
theorem intervals?_eq_some_iff {outcome : Except Fault (SpanSet × α)} {is : List (Nat × Nat)} :
    intervals? outcome = some is ↔ ∃ kept a, outcome = .ok (kept, a) ∧ kept.intervals = is := by
  cases outcome with
  | error fault => simp [intervals?, Except.toOption]
  | ok result =>
    obtain ⟨kept, a⟩ := result
    simp [intervals?, Except.toOption]

end Outcome

namespace Expression

/-! ## Trees -/

/-- Induction over an expression, with a hypothesis for each part of a group. -/
@[elab_as_elim, induction_eliminator]
theorem induct {motive : Expression → Prop} (leaf : ∀ l, motive (.leaf l))
    (group : ∀ op first rest, (∀ part ∈ first :: rest, motive part) →
      motive (.group op first rest)) (e : Expression) : motive e :=
  -- over a list of expressions the motive is that of all its members
  @Expression.rec motive (fun parts => ∀ part ∈ parts, motive part) leaf
    (fun op first rest hfirst hrest =>
      group op first rest (List.forall_mem_cons.2 ⟨hfirst, hrest⟩))
    (fun _ h => absurd h List.not_mem_nil)
    (fun _ _ hpart hparts => List.forall_mem_cons.2 ⟨hpart, hparts⟩) e

mutual

/-- The leaves from left to right. -/
def leaves : Expression → List Leaf
  | .leaf l => [l]
  | .group _ first rest => first.leaves ++ leavesOfParts rest

/-- The leaves of several expressions, one after the other. -/
def leavesOfParts : List Expression → List Leaf
  | [] => []
  | part :: parts => part.leaves ++ leavesOfParts parts

end

theorem leavesOfParts_eq (parts : List Expression) : leavesOfParts parts = parts.flatMap leaves :=
  flatMap_of_cons rfl (fun _ _ => rfl) parts

/-- The leaves of a group are those of its parts, in their order. -/
theorem leaves_group (op : GroupOperator) (first : Expression) (rest : List Expression) :
    (group op first rest).leaves = (first :: rest).flatMap leaves := by
  rw [leaves, leavesOfParts_eq, List.flatMap_cons]

theorem nodesOfParts_eq (depth : Nat) (parts : List Expression) :
    nodesOfParts depth parts = parts.flatMap (nodesFrom depth) :=
  flatMap_of_cons rfl (fun _ _ => rfl) parts

/-- The nodes of a group are the group and those of its parts. -/
theorem nodesFrom_group (depth : Nat) (op : GroupOperator) (first : Expression)
    (rest : List Expression) :
    (group op first rest).nodesFrom depth =
      ⟨.group op, none, none, depth⟩ :: (first :: rest).flatMap (nodesFrom (depth + 1)) := by
  rw [nodesFrom, nodesOfParts_eq, List.flatMap_cons]

/-- What is said of leaves only stands in the listing just if it stands at a leaf. -/
theorem exists_mem_nodesFrom_iff {p : ExpressionNode → Prop} {q : Leaf → Prop}
    (hleaf : ∀ l depth, p ⟨.leaf l.operator, l.patternId, l.operand, depth⟩ ↔ q l)
    (hgroup : ∀ op depth, ¬ p ⟨.group op, none, none, depth⟩) (e : Expression) (depth : Nat) :
    (∃ node ∈ e.nodesFrom depth, p node) ↔ ∃ l ∈ e.leaves, q l := by
  induction e generalizing depth with
  | leaf l => simp [nodesFrom, leaves, hleaf]
  | group op first rest ih =>
    rw [nodesFrom_group, leaves_group]
    constructor
    · rintro ⟨node, hnode, hp⟩
      rcases List.mem_cons.1 hnode with rfl | hnode
      · exact absurd hp (hgroup op depth)
      · obtain ⟨part, hpart, hnode⟩ := List.mem_flatMap.1 hnode
        obtain ⟨l, hl, hq⟩ := (ih part hpart (depth + 1)).1 ⟨node, hnode, hp⟩
        exact ⟨l, List.mem_flatMap.2 ⟨part, hpart, hl⟩, hq⟩
    · rintro ⟨l, hl, hq⟩
      obtain ⟨part, hpart, hl⟩ := List.mem_flatMap.1 hl
      obtain ⟨node, hnode, hp⟩ := (ih part hpart (depth + 1)).2 ⟨l, hl, hq⟩
      exact ⟨node, List.mem_cons_of_mem _ (List.mem_flatMap.2 ⟨part, hpart, hnode⟩), hp⟩

/-! ## Evaluation -/

variable (env : Surroundings) (candidates : SpanSet)

/-- A leaf keeps what its operator does, and is one step. -/
theorem result_keep_leaf (l : Leaf) :
    ((leaf l).keep env candidates).result =
      (l.keep env candidates).result.map fun kept => (kept, [l.step env kept]) := by
  rw [keep, Noted.result_bind]
  cases (l.keep env candidates).result <;> rfl

/-- Parts are evaluated one after the other, each over the same candidates. -/
theorem result_keepParts (parts : List Expression) :
    (keepParts env candidates parts).result =
      (parts.mapM fun part : Expression => (part.keep env candidates).result).map fun outcomes =>
        (outcomes.map (·.1), outcomes.flatMap (·.2)) := by
  refine Noted.result_traverse ?_ (fun part parts => ?_) parts
  · rw [keepParts]
  · rw [keepParts]

/-- A group combines what its parts keep, and leaves its step after theirs. -/
theorem result_keep_group (op : GroupOperator) (first : Expression) (rest : List Expression) :
    ((group op first rest).keep env candidates).result =
      (keepParts env candidates (first :: rest)).result.map fun (kept, steps) =>
        (op.combine candidates kept, steps ++ [op.step (op.combine candidates kept)]) := by
  rw [keep, keepParts]
  exact (Noted.map_result_bind_bind (first.keep env candidates)
    (fun _ => keepParts env candidates rest)
    (fun one more => (one.1 :: more.1, one.2 ++ more.2)) fun (kept, steps) =>
      (op.combine candidates kept, steps ++ [op.step (op.combine candidates kept)])).symm

/-- The fault of a group is that of its first part with one. -/
theorem fault?_keep_group (op : GroupOperator) (first : Expression) (rest : List Expression) :
    fault? ((group op first rest).keep env candidates).result =
      (first :: rest).findSome? fun part : Expression =>
        fault? (part.keep env candidates).result := by
  rw [result_keep_group, Outcome.fault?_map, result_keepParts, Outcome.fault?_map,
    Outcome.fault?_mapM]

/-- An expression is evaluated on all candidates. -/
theorem result_evaluate (e : Expression) :
    (e.evaluate env).result = (e.keep env env.registry.allSpans).result.map fun (kept, steps) =>
      (kept, ⟨env.registry.spansByPattern, steps⟩) := by
  rw [evaluate, Noted.result_bind]
  cases (e.keep env env.registry.allSpans).result <;> rfl

variable {env candidates} {kept : SpanSet} {steps : List Step}

theorem keep_leaf_eq_ok_iff {l : Leaf} :
    ((leaf l).keep env candidates).result = .ok (kept, steps) ↔
      (l.keep env candidates).result = .ok kept ∧ [l.step env kept] = steps := by
  rw [result_keep_leaf, Outcome.map_eq_ok_iff]
  simp only [Prod.mk.injEq]
  constructor
  · rintro ⟨out, hout, rfl, hsteps⟩
    exact ⟨hout, hsteps⟩
  · rintro ⟨hout, hsteps⟩
    exact ⟨kept, hout, rfl, hsteps⟩

/-- A group has a result just if every part has one. -/
theorem keep_group_eq_ok_iff {op : GroupOperator} {first : Expression} {rest : List Expression} :
    ((group op first rest).keep env candidates).result = .ok (kept, steps) ↔
      ∃ outcomes, List.Forall₂ (fun (part : Expression) outcome =>
          (part.keep env candidates).result = .ok outcome) (first :: rest) outcomes ∧
        op.combine candidates (outcomes.map (·.1)) = kept ∧
        outcomes.flatMap (·.2) ++ [op.step kept] = steps := by
  rw [result_keep_group, result_keepParts, Outcome.map_eq_ok_iff]
  constructor
  · rintro ⟨outs, houts, hgroup⟩
    obtain ⟨outcomes, hparts, rfl⟩ := Outcome.map_eq_ok_iff.1 houts
    obtain ⟨rfl, rfl⟩ := Prod.mk.inj hgroup
    exact ⟨outcomes, Outcome.mapM_eq_ok_iff.1 hparts, rfl, rfl⟩
  · rintro ⟨outcomes, hparts, rfl, rfl⟩
    exact ⟨_, Outcome.map_eq_ok_iff.2 ⟨outcomes, Outcome.mapM_eq_ok_iff.2 hparts, rfl⟩, rfl⟩

/-- An expression has the fault of the first leaf that has one. -/
theorem fault?_keep (env : Surroundings) (candidates : SpanSet) (e : Expression) :
    fault? (e.keep env candidates).result =
      e.leaves.findSome? fun l => fault? (l.keep env candidates).result := by
  induction e with
  | leaf l =>
    rw [result_keep_leaf, Outcome.fault?_map, leaves, List.findSome?_singleton]
  | group op first rest ih =>
    rw [fault?_keep_group, leaves_group]
    exact Outcome.findSome?_flatMap ih

end Expression

end RuleSieve
