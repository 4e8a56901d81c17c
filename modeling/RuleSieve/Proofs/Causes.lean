/-
  What a rule can fail with.

  A leaf fails for its operand, for the value of its predicate, or because its predicate must not run
  (`Leaf.keep_fails`); a fix fails for a metavariable without a binding.  Whatever else a fault may
  say comes from no expression.
-/
import RuleSieve.Proofs.Faults
import RuleSieve.Proofs.Filter
import RuleSieve.Proofs.Findings

namespace RuleSieve

open Outcome (fault?)

variable {candidates : SpanSet} {ms : List Match} {fault : Fault}

/-! ## Filters -/

namespace Filter

variable {c : MetavariableCondition}

/-- A filter by regular expression can only lack one, or have one that is no pattern. -/
theorem byRegex_fails (h : (byRegex candidates ms c).result = .error fault) :
    fault = .schema (.wantsRegex c.metavariable) ∨
      ∃ pattern problem, fault = .invalidRegex pattern problem := by
  rw [byRegex, Noted.result_bind_eq_error_iff] at h
  rcases h with h | ⟨pattern, -, h⟩
  · obtain ⟨-, rfl⟩ := Outcome.elim_eq_error_iff.1 h
    exact .inl rfl
  · rw [Noted.result_bind_eq_error_iff] at h
    rcases h with h | ⟨regex, -, h⟩
    · obtain ⟨problem, -, rfl⟩ := Outcome.mapError_eq_error_iff.1 h
      exact .inr ⟨pattern, problem, rfl⟩
    · cases h

/-- A filter by comparison can only lack one, or have one that cannot be read. -/
theorem byComparison_fails (h : (byComparison candidates ms c).result = .error fault) :
    fault = .schema (.wantsComparison c.metavariable) ∨
      ∃ source problem, fault = .invalidExpression source problem := by
  rw [byComparison, Noted.result_bind_eq_error_iff] at h
  rcases h with h | ⟨source, -, h⟩
  · obtain ⟨-, rfl⟩ := Outcome.elim_eq_error_iff.1 h
    exact .inl rfl
  · rw [Noted.result_bind_eq_error_iff] at h
    rcases h with h | ⟨comparison, -, h⟩
    · obtain ⟨problem, -, rfl⟩ := Outcome.mapError_eq_error_iff.1 h
      exact .inr ⟨source, problem, rfl⟩
    · cases h

/-- A predicate that runs can only be at fault for its value. -/
theorem byPredicate_fails {source : String}
    (h : (byPredicate candidates ms source).result = .error fault) :
    ∃ source' value, fault = .schema (.notBoolean source' value) := by
  rw [← Outcome.fault?_eq_some_iff, fault?_byPredicate] at h
  obtain ⟨m, -, hm⟩ := List.exists_of_findSome?_eq_some h
  split at hm
  · unfold whereFault? whereHolds at hm
    split at hm
    · next predicate _ =>
      split at hm
      · cases hm
      · next value _ _ => exact ⟨predicate.source, value, (Option.some.inj hm).symm⟩
      · cases hm
      · cases hm
    · cases hm
  · cases hm

end Filter

/-! ## Leaves -/

namespace Leaf

/-- What a leaf can fail with. -/
inductive CanFail (l : Leaf) (allowExec : Bool) : Fault → Prop
  | wantsText : CanFail l allowExec (.schema (.wantsText l.operator))
  | wantsRecord : CanFail l allowExec (.schema (.wantsRecord l.operator))
  | wantsOperand : CanFail l allowExec (.schema (.wantsOperand l.operator))
  | wantsRegex (name : String) : CanFail l allowExec (.schema (.wantsRegex name))
  | wantsComparison (name : String) : CanFail l allowExec (.schema (.wantsComparison name))
  | invalidRegex (pattern : String) (problem : Regex.PatternError) :
      CanFail l allowExec (.invalidRegex pattern problem)
  | invalidExpression (source : String) (problem : Predicate.Error) :
      CanFail l allowExec (.invalidExpression source problem)
  | notBoolean (source : String) (value : Predicate.Value) :
      CanFail l allowExec (.schema (.notBoolean source value))
  | refused (hop : l.operator = .patternWhere) (hallow : allowExec = false) :
      CanFail l allowExec .executionNotAllowed

variable {l : Leaf} {allowExec : Bool}

theorem recordOperand_fails (h : l.recordOperand = .error fault) : l.CanFail allowExec fault := by
  unfold recordOperand at h
  split at h
  · cases h
  · rw [← Except.error.inj h]
    exact .wantsRecord
  · rw [← Except.error.inj h]
    exact .wantsOperand

theorem textOperand_fails (h : l.textOperand = .error fault) : l.CanFail allowExec fault := by
  unfold textOperand at h
  split at h
  · cases h
  · rw [← Except.error.inj h]
    exact .wantsText
  · rw [← Except.error.inj h]
    exact .wantsOperand

theorem keep_fails {env : Surroundings} (h : (l.keep env candidates).result = .error fault) :
    l.CanFail env.allowExec fault := by
  unfold keep at h
  cases hop : l.operator <;> simp only [hop] at h
  case metavariableRegex =>
    rw [Noted.result_bind_eq_error_iff] at h
    rcases h with h | ⟨c, -, h⟩
    · exact recordOperand_fails h
    · rcases Filter.byRegex_fails h with rfl | ⟨pattern, problem, rfl⟩
      · exact .wantsRegex c.metavariable
      · exact .invalidRegex pattern problem
  case metavariableComparison =>
    rw [Noted.result_bind_eq_error_iff] at h
    rcases h with h | ⟨c, -, h⟩
    · exact recordOperand_fails h
    · rcases Filter.byComparison_fails h with rfl | ⟨source, problem, rfl⟩
      · exact .wantsComparison c.metavariable
      · exact .invalidExpression source problem
  case patternWhere =>
    cases hallow : env.allowExec with
    | false =>
      rw [hallow] at h
      rw [← Except.error.inj h]
      exact .refused hop rfl
    | true =>
      simp only [hallow, Bool.not_true, Bool.false_eq_true, if_false] at h
      rw [Noted.result_bind_eq_error_iff] at h
      rcases h with h | ⟨source, -, h⟩
      · exact textOperand_fails h
      · obtain ⟨source', value, rfl⟩ := Filter.byPredicate_fails h
        exact .notBoolean source' value
  -- the other leaves only look for spans
  all_goals cases h

end Leaf

/-! ## Expressions and fixes -/

/-- An expression fails as one of its leaves can. -/
theorem Expression.evaluate_fails {env : Surroundings} {e : Expression}
    (h : (e.evaluate env).result = .error fault) : ∃ l ∈ e.leaves, l.CanFail env.allowExec fault := by
  rw [← Outcome.fault?_eq_some_iff, fault?_evaluate] at h
  obtain ⟨l, hl, hfault⟩ := List.exists_of_findSome?_eq_some h
  rw [result_evaluate, Outcome.fault?_map, result_keep_leaf, Outcome.fault?_map,
    Outcome.fault?_eq_some_iff] at hfault
  exact ⟨l, hl, Leaf.keep_fails hfault⟩

/-- A fix can only lack a metavariable. -/
theorem Template.fillFix_fails {template : String} {m : Match}
    (h : fillFix template m = .error fault) : ∃ name, fault = .fixNotBound name := by
  rw [fillFix, Outcome.bind_eq_error_iff] at h
  rcases h with h | ⟨parts, -, h⟩
  · rw [← Outcome.fault?_eq_some_iff, Outcome.fault?_mapM] at h
    obtain ⟨piece, -, hpiece⟩ := List.exists_of_findSome?_eq_some h
    cases piece with
    | char c => cases hpiece
    | token token =>
      rw [fillPiece, fillToken] at hpiece
      split at hpiece
      · cases hpiece
      · split at hpiece
        · exact ⟨_, (Option.some.inj hpiece).symm⟩
        · cases hpiece
  · cases h

end RuleSieve
