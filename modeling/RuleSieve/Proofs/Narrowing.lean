/-
  Conjunctions whose parts narrow the candidates for each other.

  Evaluation gives each part of a conjunction the candidates of the conjunction, and keeps what all
  parts keep.  The parts could as well be evaluated in turn, each over what the ones before it have
  left (`Expression.narrow`).  Both ways keep the same where evaluation has a result
  (`narrowing_refines`): what a part keeps does not depend on which candidates are there, and a part
  that does not fail over some candidates does not fail over fewer.

  A part may well fail over more candidates.  So narrowing can get past a fault of evaluation, and
  then it is that of a predicate without a truth value at a match that an earlier part of a
  conjunction has dropped (`DroppedFault`).
-/
import RuleSieve.Proofs.Completeness
import RuleSieve.Proofs.Order

namespace RuleSieve

open Outcome (fault?)

/-! ## Narrowing -/

namespace Expression

mutual

/-- What an expression keeps of the candidates, where each part of a conjunction is given only the
    candidates that the parts before it have left. -/
def narrow (env : Surroundings) (candidates : SpanSet) : Expression → Noted (SpanSet × List Step)
  | .leaf l => do
    let kept ← l.keep env candidates
    return (kept, [l.step env kept])
  | .group .either first rest => do
    let (head, headSteps) ← first.narrow env candidates
    let (tail, tailSteps) ← narrowParts env candidates rest
    let kept := GroupOperator.either.combine candidates (head :: tail)
    return (kept, headSteps ++ tailSteps ++ [GroupOperator.either.step kept])
  | .group .all first rest => do
    let (head, headSteps) ← first.narrow env candidates
    let (kept, tailSteps) ← narrowThrough env (candidates.filter fun s => head.contains s) rest
    return (kept, headSteps ++ tailSteps ++ [GroupOperator.all.step kept])

/-- What several expressions keep, each of the same candidates. -/
def narrowParts (env : Surroundings) (candidates : SpanSet) :
    List Expression → Noted (List SpanSet × List Step)
  | [] => pure ([], [])
  | part :: parts => do
    let (kept, steps) ← part.narrow env candidates
    let (more, moreSteps) ← narrowParts env candidates parts
    return (kept :: more, steps ++ moreSteps)

/-- What several expressions leave of the candidates, each of what the ones before it have left. -/
def narrowThrough (env : Surroundings) (candidates : SpanSet) :
    List Expression → Noted (SpanSet × List Step)
  | [] => pure (candidates, [])
  | part :: parts => do
    let (kept, steps) ← part.narrow env candidates
    let (left, moreSteps) ← narrowThrough env (candidates.filter fun s => kept.contains s) parts
    return (left, steps ++ moreSteps)

end

section Unfolding

variable (env : Surroundings) (candidates : SpanSet)

/-- Leaves have no parts to narrow for. -/
theorem narrow_leaf (l : Leaf) : (leaf l).narrow env candidates = (leaf l).keep env candidates := by
  rw [narrow, keep]

/-- Parts that are tried on the same candidates keep what each keeps alone. -/
theorem result_narrowParts (parts : List Expression) :
    (narrowParts env candidates parts).result =
      (parts.mapM fun part : Expression => (part.narrow env candidates).result).map fun outcomes =>
        (outcomes.map (·.1), outcomes.flatMap (·.2)) := by
  refine Noted.result_traverse ?_ (fun part parts => ?_) parts
  · rw [narrowParts]
  · rw [narrowParts]

/-- Alternatives are all tried on the same candidates. -/
theorem result_narrow_either (first : Expression) (rest : List Expression) :
    ((group .either first rest).narrow env candidates).result =
      (narrowParts env candidates (first :: rest)).result.map fun (kept, steps) =>
        (GroupOperator.either.combine candidates kept,
          steps ++ [GroupOperator.either.step (GroupOperator.either.combine candidates kept)]) := by
  rw [narrow, narrowParts]
  exact (Noted.map_result_bind_bind (first.narrow env candidates)
    (fun _ => narrowParts env candidates rest)
    (fun one more => (one.1 :: more.1, one.2 ++ more.2)) fun (kept, steps) =>
      (GroupOperator.either.combine candidates kept,
        steps ++ [GroupOperator.either.step (GroupOperator.either.combine candidates kept)])).symm

/-- The parts of a conjunction are tried on what those before them left. -/
theorem result_narrow_all (first : Expression) (rest : List Expression) :
    ((group .all first rest).narrow env candidates).result =
      (narrowThrough env candidates (first :: rest)).result.map fun (kept, steps) =>
        (kept, steps ++ [GroupOperator.all.step kept]) := by
  rw [narrow, narrowThrough]
  exact (Noted.map_result_bind_bind (first.narrow env candidates)
    (fun one => narrowThrough env (candidates.filter fun s => one.1.contains s) rest)
    (fun one more => (more.1, one.2 ++ more.2)) fun (kept, steps) =>
      (kept, steps ++ [GroupOperator.all.step kept])).symm

end Unfolding

end Expression

/-! ## Fewer candidates -/

namespace SpanSet

/-- The spans of `kept` are the candidates that satisfy a condition. -/
def Restricts (candidates : SpanSet) (p : Span → Prop) (kept : SpanSet) : Prop :=
  ∀ s, s ∈ kept.spans ↔ s ∈ candidates.spans ∧ p s

variable {candidates kept : SpanSet} {p q : Span → Prop}

theorem restricts_self : candidates.Restricts (fun _ => True) candidates := by
  intro s
  rw [and_true]

/-- Candidates whose intervals are kept are those that the condition holds of. -/
theorem Selects.restricts (h : candidates.Selects p kept) :
    candidates.Restricts p (candidates.filter fun s => kept.contains s) := by
  intro s
  rw [mem_filter]
  exact and_congr_right fun hs => h.contains_iff hs

/-- What restricts the candidates to a condition selects what satisfies it. -/
theorem Restricts.selects (h : candidates.Restricts p kept) : candidates.Selects p kept := by
  intro i
  rw [mem_intervals]
  constructor
  · rintro ⟨s, hs, hi⟩
    obtain ⟨hs, hp⟩ := (h s).1 hs
    exact ⟨s, hs, hi, hp⟩
  · rintro ⟨s, hs, hi, hp⟩
    exact ⟨s, (h s).2 ⟨hs, hp⟩, hi⟩

/-- Restricting twice is restricting to both conditions. -/
theorem Restricts.trans {less : SpanSet} (h : candidates.Restricts p kept)
    (h' : kept.Restricts q less) : candidates.Restricts (fun s => p s ∧ q s) less := by
  intro s
  rw [h' s, h s, and_assoc]

/-- What restricts depends on the condition only. -/
theorem Restricts.congr (h : candidates.Restricts p kept) (hpq : ∀ s, p s ↔ q s) :
    candidates.Restricts q kept := by
  intro s
  rw [h s, hpq s]

/-- Every interval of `fewer` is one of the candidates. -/
def Covers (candidates fewer : SpanSet) : Prop :=
  ∀ s, fewer.contains s = true → candidates.contains s = true

theorem covers_self : candidates.Covers candidates := fun _ hs => hs

theorem Covers.trans {fewer less : SpanSet} (h : candidates.Covers fewer) (h' : fewer.Covers less) :
    candidates.Covers less := fun s hs => h s (h' s hs)

/-- What is restricted has no intervals of its own. -/
theorem Restricts.covers (h : candidates.Restricts p kept) : candidates.Covers kept := by
  intro s hs
  obtain ⟨t, ht, hi⟩ := mem_intervals.1 (contains_iff.1 hs)
  exact contains_iff.2 (mem_intervals.2 ⟨t, ((h t).1 ht).1, hi⟩)

end SpanSet

/-! ## Faults over other candidates -/

variable {ms : List Match} {allowExec : Bool} {candidates : SpanSet}

namespace Filter

/-- The predicate has a value at the match that is no truth value, and the fault says so. -/
def NotBoolean (source : String) (m : Match) (fault : Fault) : Prop :=
  ∃ predicate value, Predicate.parse source = .ok predicate ∧
    predicate.evaluate (whereScope m) = .ok value ∧ (∀ b, value ≠ .bool b) ∧
    fault = .schema (.notBoolean predicate.source value)

/-- A predicate is at fault for a match only because its value there is no truth value. -/
theorem notBoolean_of_whereFault? {source : String} {m : Match} {fault : Fault}
    (h : whereFault? source m = some fault) : NotBoolean source m fault := by
  unfold whereFault? at h
  split at h
  · next predicate hp =>
    rw [Outcome.fault?_eq_some_iff] at h
    unfold whereHolds at h
    split at h
    · cases h
    · next value hnot hv =>
      exact ⟨predicate, value, hp, hv, fun b hb => hnot b hb, (Except.error.inj h).symm⟩
    · cases h
    · cases h
  · cases h

end Filter

namespace Leaf

variable {l : Leaf} {fewer left candidates' : SpanSet}

/-- A leaf that does not fail over some candidates does not fail over fewer. -/
theorem fault?_keep_mono {r : Registry}
    (hsub : candidates.Covers fewer)
    (h : fault? (l.keep ⟨r, allowExec⟩ candidates).result = none) :
    fault? (l.keep ⟨r, allowExec⟩ fewer).result = none := by
  rcases l.fault?_keep_cases allowExec with hsame | ⟨-, source, -, hwhere⟩
  · rw [hsame r r fewer candidates, h]
  · rw [hwhere, List.findSome?_eq_none_iff] at *
    intro m hm
    split
    · next hin => simpa only [if_pos (hsub _ hin)] using h m hm
    · rfl

/-- The leaf has a predicate without a truth value at a match of a candidate, and of the candidates
    that are left, each one with the interval of that match is one that a guard rejects. -/
def FailsUnseen (ms : List Match) (candidates left : SpanSet) (guards : List Expression) (l : Leaf)
    (fault : Fault) : Prop :=
  l.operator = .patternWhere ∧ ∃ source m, l.operand = some (.text source) ∧ m ∈ ms ∧
    Filter.NotBoolean source m fault ∧ candidates.contains m.span = true ∧
    ∀ s ∈ left.spans, s.interval = m.span.interval → ∃ guard ∈ guards, ¬ guard.Accepts ms s

/-- A leaf that fails over some candidates fails alike over fewer, unless the match at fault has no
    candidate among these. -/
theorem fault?_keep_fewer {fault : Fault}
    (hsub : candidates.Covers fewer)
    (h : fault? (l.keep ⟨.ofMatches ms, allowExec⟩ candidates).result = some fault) :
    fault? (l.keep ⟨.ofMatches ms, allowExec⟩ fewer).result = some fault ∨
      l.FailsUnseen ms candidates fewer [] fault := by
  rcases l.fault?_keep_cases allowExec with hsame | ⟨hop, source, hs, hwhere⟩
  · rw [hsame _ _ fewer candidates]
    exact .inl h
  · rw [hwhere] at h ⊢
    have hnone : ∀ m ∈ (Registry.ofMatches ms).allMatches,
        (if candidates.contains m.span then Filter.whereFault? source m else none) = none →
        (if fewer.contains m.span then Filter.whereFault? source m else none) = none := by
      intro m _ hfault
      split
      · next hin => simpa only [if_pos (hsub _ hin)] using hfault
      · rfl
    refine (Outcome.findSome?_or_exists h hnone).imp_right ?_
    rintro ⟨m, hm, hfault, hunseen⟩
    split at hfault
    · next hin =>
      refine ⟨hop, source, m, hs, Registry.mem_allMatches.1 hm,
        Filter.notBoolean_of_whereFault? hfault, hin, fun s hs hi => ?_⟩
      -- with a candidate the match would be at fault here too
      have hcontains : fewer.contains m.span = true :=
        SpanSet.contains_iff.2 (SpanSet.mem_intervals.2 ⟨s, hs, hi⟩)
      rw [if_pos hcontains] at hunseen
      exact absurd hfault hunseen
    · cases hfault

/-- What a guard rejects need not be left. -/
theorem FailsUnseen.guard {fault : Fault} {guards : List Expression} {guard : Expression}
    (hleft : candidates'.Restricts (fun s => guard.Accepts ms s) left)
    (h : l.FailsUnseen ms candidates left guards fault) :
    l.FailsUnseen ms candidates candidates' (guard :: guards) fault := by
  obtain ⟨hop, source, m, hs, hm, hnot, hin, hrejected⟩ := h
  refine ⟨hop, source, m, hs, hm, hnot, hin, fun s hs hi => ?_⟩
  by_cases haccepts : guard.Accepts ms s
  · obtain ⟨other, hother, hrejects⟩ := hrejected s ((hleft s).2 ⟨hs, haccepts⟩) hi
    exact ⟨other, List.mem_cons_of_mem guard hother, hrejects⟩
  · exact ⟨guard, List.mem_cons_self, haccepts⟩

end Leaf

namespace Expression

/-! ## What narrowing keeps -/

variable {e : Expression} {kept : SpanSet} {steps : List Step}

/-- A conjunction succeeds if its first part does, and the others do on what it left. -/
theorem narrowThrough_cons_eq_ok_iff {env : Surroundings} {part : Expression}
    {parts : List Expression} {left : SpanSet} :
    (narrowThrough env candidates (part :: parts)).result = .ok (left, steps) ↔
      ∃ outcome more, (part.narrow env candidates).result = .ok outcome ∧
        (narrowThrough env (candidates.filter fun s => outcome.1.contains s) parts).result =
          .ok (left, more) ∧ outcome.2 ++ more = steps := by
  rw [narrowThrough, Noted.result_bind_eq_ok_iff]
  refine exists_congr fun outcome => ?_
  rw [Noted.result_bind_eq_ok_iff]
  constructor
  · rintro ⟨houtcome, ⟨left', more⟩, hmore, h⟩
    obtain ⟨rfl, rfl⟩ := Prod.mk.inj (Except.ok.inj h)
    exact ⟨more, houtcome, hmore, rfl⟩
  · rintro ⟨more, houtcome, hmore, rfl⟩
    exact ⟨houtcome, (left, more), hmore, rfl⟩

/-- Parts that keep what they accept leave, one after the other, what all of them accept. -/
theorem narrowThrough_restricts {parts : List Expression} {left : SpanSet}
    (hparts : ∀ part ∈ parts, ∀ {candidates kept steps},
      (part.narrow ⟨.ofMatches ms, allowExec⟩ candidates).result = .ok (kept, steps) →
      candidates.Selects (fun s => part.Accepts ms s) kept)
    (h : (narrowThrough ⟨.ofMatches ms, allowExec⟩ candidates parts).result = .ok (left, steps)) :
    candidates.Restricts (fun s => ∀ part ∈ parts, part.Accepts ms s) left := by
  induction parts generalizing candidates steps with
  | nil =>
    rw [narrowThrough] at h
    obtain ⟨rfl, -⟩ := Prod.mk.inj (Except.ok.inj h)
    refine SpanSet.restricts_self.congr fun s => ?_
    simp
  | cons part parts ih =>
    obtain ⟨outcome, more, hpart, hmore, -⟩ := narrowThrough_cons_eq_ok_iff.1 h
    obtain ⟨hfirst, hrest⟩ := List.forall_mem_cons.1 hparts
    have hkept := (hfirst hpart).restricts
    refine (hkept.trans (ih hrest hmore)).congr fun s => ?_
    rw [List.forall_mem_cons]

/-- Narrowing keeps the intervals of the candidates that the expression accepts. -/
theorem narrow_selects
    (h : (e.narrow ⟨.ofMatches ms, allowExec⟩ candidates).result = .ok (kept, steps)) :
    candidates.Selects (fun s => e.Accepts ms s) kept := by
  induction e generalizing candidates kept steps with
  | leaf l =>
    rw [narrow_leaf] at h
    exact keep_selects h
  | group op first rest ih =>
    cases op with
    | either =>
      rw [result_narrow_either, Outcome.map_eq_ok_iff] at h
      obtain ⟨outs, hparts, hkept⟩ := h
      obtain ⟨rfl, -⟩ := Prod.mk.inj hkept
      rw [result_narrowParts, Outcome.map_eq_ok_iff] at hparts
      obtain ⟨outcomes, hparts, rfl⟩ := hparts
      refine combine_selects .either ?_
      rw [List.forall₂_map_right_iff]
      exact ((List.forall₂_and_left _ _).2 ⟨@ih, Outcome.mapM_eq_ok_iff.1 hparts⟩).imp
        fun _ _ hpart => hpart.1 hpart.2
    | all =>
      rw [result_narrow_all, Outcome.map_eq_ok_iff] at h
      obtain ⟨⟨left, more⟩, hleft, hkept⟩ := h
      obtain ⟨rfl, -⟩ := Prod.mk.inj hkept
      refine (narrowThrough_restricts (fun part hpart => ih part hpart) hleft).selects.congr fun s => ?_
      exact accepts_all.symm

/-! ## When narrowing fails -/

/-- Expressions that do not fail over fewer candidates can be evaluated one after the other. -/
theorem narrowThrough_succeeds {parts : List Expression} {left : SpanSet}
    (hparts : ∀ part ∈ parts, ∀ {fewer : SpanSet}, candidates.Covers fewer →
      fault? (part.narrow ⟨.ofMatches ms, allowExec⟩ fewer).result = none)
    (hsub : candidates.Covers left) :
    fault? (narrowThrough ⟨.ofMatches ms, allowExec⟩ left parts).result = none := by
  induction parts generalizing left with
  | nil => rw [narrowThrough]; rfl
  | cons part parts ih =>
    obtain ⟨hpart, hrest⟩ := List.forall_mem_cons.1 hparts
    obtain ⟨outcome, houtcome⟩ := Outcome.fault?_eq_none_iff.1 (hpart hsub)
    have hkept := (narrow_selects houtcome).restricts
    obtain ⟨⟨out, more⟩, hmore⟩ := Outcome.fault?_eq_none_iff.1
      (ih hrest (hsub.trans hkept.covers))
    exact Outcome.fault?_eq_none_iff.2
      ⟨_, narrowThrough_cons_eq_ok_iff.2 ⟨outcome, more, houtcome, hmore, rfl⟩⟩

/-- An expression that does not fail over some candidates can narrow fewer of them. -/
theorem narrow_succeeds {fewer : SpanSet} (hsub : candidates.Covers fewer)
    (h : fault? (e.keep ⟨.ofMatches ms, allowExec⟩ candidates).result = none) :
    fault? (e.narrow ⟨.ofMatches ms, allowExec⟩ fewer).result = none := by
  induction e generalizing fewer with
  | leaf l =>
    rw [result_keep_leaf, Outcome.fault?_map] at h
    rw [narrow_leaf, result_keep_leaf, Outcome.fault?_map]
    exact Leaf.fault?_keep_mono hsub h
  | group op first rest ih =>
    rw [fault?_keep_group, List.findSome?_eq_none_iff] at h
    have hparts : ∀ part ∈ first :: rest, ∀ {fewer : SpanSet}, candidates.Covers fewer →
        fault? (part.narrow ⟨.ofMatches ms, allowExec⟩ fewer).result = none := by
      intro part hpart fewer hfewer
      exact ih part hpart hfewer (h part hpart)
    cases op with
    | either =>
      rw [result_narrow_either, Outcome.fault?_map, result_narrowParts, Outcome.fault?_map,
        Outcome.fault?_mapM, List.findSome?_eq_none_iff]
      exact fun part hpart => hparts part hpart hsub
    | all =>
      rw [result_narrow_all, Outcome.fault?_map]
      exact narrowThrough_succeeds hparts hsub

/-- Where evaluation has a result, narrowing has one with the same intervals. -/
theorem narrow_of_keep
    (h : (e.keep ⟨.ofMatches ms, allowExec⟩ candidates).result = .ok (kept, steps)) :
    ∃ kept' steps', (e.narrow ⟨.ofMatches ms, allowExec⟩ candidates).result = .ok (kept', steps') ∧
      kept'.intervals = kept.intervals := by
  have hnone : fault? (e.keep ⟨.ofMatches ms, allowExec⟩ candidates).result = none :=
    Outcome.fault?_eq_none_iff.2 ⟨_, h⟩
  obtain ⟨⟨kept', steps'⟩, h'⟩ := Outcome.fault?_eq_none_iff.1
    (narrow_succeeds SpanSet.covers_self hnone)
  refine ⟨kept', steps', h', SpanSet.intervals_ext fun i => ?_⟩
  rw [narrow_selects h' i, keep_selects h i]

/-! ## Faults that only evaluation has -/

/-- The leaf stands in the expression, and the guards are the parts of conjunctions that stand before
    it or before a part that it stands in. -/
inductive GuardedLeaf : Expression → List Expression → Leaf → Prop
  | leaf {l : Leaf} : GuardedLeaf (.leaf l) [] l
  | either {first part : Expression} {rest guards : List Expression} {l : Leaf}
      (hpart : part ∈ first :: rest) (h : GuardedLeaf part guards l) :
      GuardedLeaf (.group .either first rest) guards l
  | all {first part : Expression} {rest before after guards : List Expression} {l : Leaf}
      (hparts : first :: rest = before ++ part :: after) (h : GuardedLeaf part guards l) :
      GuardedLeaf (.group .all first rest) (before ++ guards) l

/-- The parts of a conjunction in turn fail as one of them fails over all candidates, unless the match
    at fault has no candidate any more. -/
theorem narrowThrough_fault {parts : List Expression} {left : SpanSet} {fault : Fault}
    (hsub : candidates.Covers left)
    (hparts : ∀ part ∈ parts, ∀ {fewer : SpanSet}, candidates.Covers fewer →
      fault? (part.keep ⟨.ofMatches ms, allowExec⟩ candidates).result = some fault →
      fault? (part.narrow ⟨.ofMatches ms, allowExec⟩ fewer).result = some fault ∨
        ∃ guards l, GuardedLeaf part guards l ∧ l.FailsUnseen ms candidates fewer guards fault)
    (h : (parts.findSome? fun part : Expression =>
      fault? (part.keep ⟨.ofMatches ms, allowExec⟩ candidates).result) = some fault) :
    fault? (narrowThrough ⟨.ofMatches ms, allowExec⟩ left parts).result = some fault ∨
      ∃ before part after guards l, parts = before ++ part :: after ∧ GuardedLeaf part guards l ∧
        l.FailsUnseen ms candidates left (before ++ guards) fault := by
  induction parts generalizing left with
  | nil => cases h
  | cons part parts ih =>
    obtain ⟨hpart, hrest⟩ := List.forall_mem_cons.1 hparts
    rw [List.findSome?_cons] at h
    cases hkeep : fault? (part.keep ⟨.ofMatches ms, allowExec⟩ candidates).result with
    | some found =>
      rw [hkeep] at h
      obtain rfl := Option.some.inj h
      rcases hpart hsub hkeep with hnarrow | ⟨guards, l, hl, hunseen⟩
      · rw [Outcome.fault?_eq_some_iff] at hnarrow
        rw [narrowThrough, Noted.result_bind, hnarrow]
        exact .inl rfl
      · exact .inr ⟨[], part, parts, guards, l, rfl, hl, hunseen⟩
    | none =>
      rw [hkeep] at h
      obtain ⟨outcome, houtcome⟩ := Outcome.fault?_eq_none_iff.1 (narrow_succeeds hsub hkeep)
      have hkept := (narrow_selects houtcome).restricts
      -- the other parts see what this one leaves
      rcases ih (hsub.trans hkept.covers) hrest h with
        hnarrow | ⟨before, later, after, guards, l, rfl, hl, hunseen⟩
      · rw [Outcome.fault?_eq_some_iff] at hnarrow
        rw [narrowThrough, Noted.result_bind, houtcome]
        show fault? (narrowThrough _ _ parts >>= _).result = _ ∨ _
        rw [Noted.result_bind, hnarrow]
        exact .inl rfl
      · exact .inr ⟨part :: before, later, after, guards, l, rfl, hl, hunseen.guard hkept⟩

/-- Where an expression fails over some candidates, narrowing fewer of them fails alike, unless the
    match at fault has no candidate that all guards of the leaf let through. -/
theorem narrow_fault {fewer : SpanSet} {fault : Fault}
    (hsub : candidates.Covers fewer)
    (h : fault? (e.keep ⟨.ofMatches ms, allowExec⟩ candidates).result = some fault) :
    fault? (e.narrow ⟨.ofMatches ms, allowExec⟩ fewer).result = some fault ∨
      ∃ guards l, GuardedLeaf e guards l ∧ l.FailsUnseen ms candidates fewer guards fault := by
  induction e generalizing fewer with
  | leaf l =>
    rw [result_keep_leaf, Outcome.fault?_map] at h
    rw [narrow_leaf, result_keep_leaf, Outcome.fault?_map]
    exact (Leaf.fault?_keep_fewer hsub h).imp_right fun hunseen => ⟨[], l, .leaf, hunseen⟩
  | group op first rest ih =>
    rw [fault?_keep_group] at h
    cases op with
    | either =>
      rw [result_narrow_either, Outcome.fault?_map, result_narrowParts, Outcome.fault?_map,
        Outcome.fault?_mapM]
      have hnone : ∀ part ∈ first :: rest,
          fault? (part.keep ⟨.ofMatches ms, allowExec⟩ candidates).result = none →
          fault? (part.narrow ⟨.ofMatches ms, allowExec⟩ fewer).result = none :=
        fun part _ => narrow_succeeds hsub
      refine (Outcome.findSome?_or_exists h hnone).imp_right ?_
      rintro ⟨part, hpart, hkeep, hnarrow⟩
      obtain ⟨guards, l, hl, hunseen⟩ := (ih part hpart hsub hkeep).resolve_left hnarrow
      exact ⟨guards, l, .either hpart hl, hunseen⟩
    | all =>
      rw [result_narrow_all, Outcome.fault?_map]
      refine (narrowThrough_fault hsub (fun part hpart => ih part hpart) h).imp_right ?_
      rintro ⟨before, part, after, guards, l, hparts, hl, hunseen⟩
      exact ⟨before ++ guards, l, .all hparts hl, hunseen⟩

/-- The fault comes from a predicate that has no truth value at a match, and an earlier part of a
    conjunction around it drops the candidate of that match. -/
def DroppedFault (ms : List Match) (candidates : SpanSet) (e : Expression) (fault : Fault) : Prop :=
  ∃ guards l source m, GuardedLeaf e guards l ∧ l.operator = .patternWhere ∧
    l.operand = some (.text source) ∧ m ∈ ms ∧ Filter.NotBoolean source m fault ∧
    ∃ s ∈ candidates.spans, s.interval = m.span.interval ∧
      ∃ guard ∈ guards, ¬ guard.Accepts ms s

/-- Where evaluation has no result, narrowing has none, and for the same reason, unless an earlier part
    drops the match at fault. -/
theorem narrow_of_keep_error {fault : Fault}
    (h : (e.keep ⟨.ofMatches ms, allowExec⟩ candidates).result = .error fault) :
    (e.narrow ⟨.ofMatches ms, allowExec⟩ candidates).result = .error fault ∨
      DroppedFault ms candidates e fault := by
  rw [← Outcome.fault?_eq_some_iff] at h ⊢
  refine (narrow_fault SpanSet.covers_self h).imp_right ?_
  rintro ⟨guards, l, hl, hop, source, m, hsource, hm, hnot, hin, hrejected⟩
  obtain ⟨s, hs, hi⟩ := SpanSet.mem_intervals.1 (SpanSet.contains_iff.1 hin)
  exact ⟨guards, l, source, m, hl, hop, hsource, hm, hnot, s, hs, hi, hrejected s hs hi⟩

/-! ## Evaluation and narrowing -/

/-- Two matches that bind one name to different texts. -/
def unlikeMatches : List Match :=
  [(Match.bare "p" 0 5).bind "$X" "a", (Match.bare "q" 8 9).bind "$X" "b"]

/-- The matches of one of the patterns, with a predicate that has no truth value at the other ones. -/
def guardedPredicate : Expression :=
  .group .all (.leaf ⟨.pattern, some "p", none⟩)
    [.leaf ⟨.patternWhere, none, some (.text "$X == 'a' or 1")⟩]

/-- The predicate as it is read. -/
theorem parse_guardedPredicate : Predicate.parse "$X == 'a' or 1" =
    .ok ⟨"$X == 'a' or 1",
      .or (.compare (.name "$X") [(.equal, .literal (.str "a"))]) (.literal (.int 1))⟩ := by
  have htrim : Text.trim "$X == 'a' or 1".toList =
      ['$', 'X', ' ', '=', '=', ' ', '\'', 'a', '\'', ' ', 'o', 'r', ' ', '1'] := by decide +kernel
  have hlexemes : Predicate.lexemes
      ['$', 'X', ' ', '=', '=', ' ', '\'', 'a', '\'', ' ', 'o', 'r', ' ', '1'] =
      .ok [⟨0, ['$', 'X'], .ident "$X"⟩, ⟨3, ['=', '='], .equal⟩, ⟨6, ['\'', 'a', '\''], .str "a"⟩,
        ⟨10, ['o', 'r'], .or⟩, ⟨13, ['1'], .int 1⟩] := rfl
  have hderives : Predicate.Derives .whole [.ident "$X", .equal, .str "a", .or, .int 1] _ 2 :=
    .either (.compared .equal .name (.literal rfl)) (.sum Predicate.Derives.one.summed)
  exact Predicate.parse_of_derives htrim hlexemes hderives (by decide)

/-- A predicate that can be read is asked at every match among the candidates. -/
theorem keep_predicate {registry : Registry} {candidates : SpanSet} {id : Option String}
    {source : String} {predicate : Predicate} (h : Predicate.parse source = .ok predicate) :
    (Leaf.mk .patternWhere id (some (.text source))).keep ⟨registry, true⟩ candidates =
      Filter.whereFrom predicate candidates .empty registry.allMatches := by
  rw [← Filter.byPredicate_of_parse h]
  rfl

/-- The predicate alone fails on a match of the other kind. -/
theorem keep_guardedPredicate :
    ∃ fault, (guardedPredicate.keep ⟨.ofMatches unlikeMatches, true⟩
      (Registry.ofMatches unlikeMatches).allSpans).result = .error fault := by
  rw [← Outcome.fault?_ne_none_iff, ← Option.isSome_iff_ne_none, guardedPredicate]
  simp only [keep, keepParts, keep_predicate parse_guardedPredicate]
  decide +kernel

/-- Behind the pattern it sees matches of its own kind only. -/
theorem narrow_guardedPredicate :
    ∃ kept steps, (guardedPredicate.narrow ⟨.ofMatches unlikeMatches, true⟩
      (Registry.ofMatches unlikeMatches).allSpans).result = .ok (kept, steps) ∧
      kept.intervals = [(0, 5)] := by
  rw [← Outcome.intervals?_eq_some_iff, guardedPredicate]
  simp only [narrow, narrowThrough, keep_predicate parse_guardedPredicate]
  decide +kernel

/-- What evaluation keeps, narrowing keeps too.  Where evaluation fails, narrowing fails alike or has
    been spared by an earlier part of a conjunction, which has dropped the match that the predicate has
    no truth value at; and this may happen. -/
theorem narrowing_refines :
    (∀ (ms : List Match) (allowExec : Bool) (candidates : SpanSet) (e : Expression) (kept : SpanSet)
        (steps : List Step),
      (e.keep ⟨.ofMatches ms, allowExec⟩ candidates).result = .ok (kept, steps) →
      ∃ kept' steps', (e.narrow ⟨.ofMatches ms, allowExec⟩ candidates).result =
        .ok (kept', steps') ∧ kept'.intervals = kept.intervals) ∧
    (∀ (ms : List Match) (allowExec : Bool) (candidates : SpanSet) (e : Expression) (fault : Fault),
      (e.keep ⟨.ofMatches ms, allowExec⟩ candidates).result = .error fault →
      (e.narrow ⟨.ofMatches ms, allowExec⟩ candidates).result = .error fault ∨
        DroppedFault ms candidates e fault) ∧
    (∃ (ms : List Match) (candidates : SpanSet) (e : Expression) (fault : Fault) (kept : SpanSet)
        (steps : List Step), (e.keep ⟨.ofMatches ms, true⟩ candidates).result = .error fault ∧
      (e.narrow ⟨.ofMatches ms, true⟩ candidates).result = .ok (kept, steps)) := by
  refine ⟨?_, ?_, ?_⟩
  · intro ms allowExec candidates e kept steps h
    exact narrow_of_keep h
  · intro ms allowExec candidates e fault h
    exact narrow_of_keep_error h
  · obtain ⟨fault, hfault⟩ := keep_guardedPredicate
    obtain ⟨kept, steps, hkept, -⟩ := narrow_guardedPredicate
    exact ⟨unlikeMatches, _, guardedPredicate, fault, kept, steps, hfault, hkept⟩

/-- Narrowing keeps the one call that evaluation keeps, and a predicate that a part before it has
    spared is at no fault. -/
theorem narrowing_refines_calls :
    (∃ kept steps, (callExpression.narrow ⟨.ofMatches callMatches, false⟩
        (Registry.ofMatches callMatches).allSpans).result = .ok (kept, steps) ∧
      kept.intervals = [(2, 5)]) ∧
    ∃ fault, (guardedPredicate.keep ⟨.ofMatches unlikeMatches, true⟩
        (Registry.ofMatches unlikeMatches).allSpans).result = .error fault ∧
      DroppedFault unlikeMatches (Registry.ofMatches unlikeMatches).allSpans guardedPredicate
        fault := by
  constructor
  · have hkept : Outcome.intervals? (callExpression.keep ⟨.ofMatches callMatches, false⟩
        (Registry.ofMatches callMatches).allSpans).result = some [(2, 5)] := by rfl
    obtain ⟨kept, steps, h, hintervals⟩ := Outcome.intervals?_eq_some_iff.1 hkept
    obtain ⟨kept', steps', h', hsame⟩ := narrowing_refines.1 _ _ _ _ _ _ h
    exact ⟨kept', steps', h', hsame.trans hintervals⟩
  · obtain ⟨fault, hfault⟩ := keep_guardedPredicate
    obtain ⟨kept, steps, hkept, -⟩ := narrow_guardedPredicate
    refine ⟨fault, hfault, (narrowing_refines.2.1 _ _ _ _ _ hfault).resolve_left ?_⟩
    rw [hkept]
    intro h
    cases h

end Expression

end RuleSieve
