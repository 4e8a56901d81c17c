/-
  Where the fault of an evaluation comes from.

  Nothing cuts an evaluation short but a fault: each leaf, however deep it stands, is evaluated over
  the spans of all matches, as it would be alone.  So an expression fails just if one of its leaves
  fails alone, and it fails as the first of these does (`evaluate_error_iff_leaf`).
-/
import RuleSieve.Proofs.Traversal

namespace RuleSieve.Expression

open Outcome (fault?)

/-- The fault of an expression is that of the first leaf that has one alone. -/
theorem fault?_evaluate (env : Surroundings) (e : Expression) :
    fault? (e.evaluate env).result =
      e.leaves.findSome? fun l => fault? ((leaf l).evaluate env).result := by
  simp only [result_evaluate, result_keep_leaf, Outcome.fault?_map]
  exact fault?_keep env env.registry.allSpans e

/-- An expression fails just if one of its leaves fails alone. -/
theorem evaluate_fails_iff (env : Surroundings) (e : Expression) :
    (∃ fault, (e.evaluate env).result = .error fault) ↔
      ∃ l ∈ e.leaves, ∃ fault, ((leaf l).evaluate env).result = .error fault := by
  rw [← Outcome.fault?_ne_none_iff, fault?_evaluate, Outcome.findSome?_fault?_ne_none_iff]

/-- A leaf alone fails as it fails over the spans of all matches. -/
theorem evaluate_leaf_error_iff (env : Surroundings) (l : Leaf) (fault : Fault) :
    ((leaf l).evaluate env).result = .error fault ↔
      (l.keep env env.registry.allSpans).result = .error fault := by
  rw [← Outcome.fault?_eq_some_iff, result_evaluate, result_keep_leaf, Outcome.fault?_map,
    Outcome.fault?_map, Outcome.fault?_eq_some_iff]

/-- An expression fails just if some leaf fails over the spans of all matches, and then with the fault
    of the first such leaf from the left.  The leaf fails in the same way when it is evaluated alone. -/
theorem evaluate_error_iff_leaf (env : Surroundings) (e : Expression) :
    ((∃ fault, (e.evaluate env).result = .error fault) ↔
      ∃ l ∈ e.leaves, ∃ fault, (l.keep env env.registry.allSpans).result = .error fault) ∧
    (∀ fault, (e.evaluate env).result = .error fault ↔
      ∃ before l after, e.leaves = before ++ l :: after ∧
        (∀ k ∈ before, ∃ kept, (k.keep env env.registry.allSpans).result = .ok kept) ∧
        (l.keep env env.registry.allSpans).result = .error fault) ∧
    ∀ l fault, ((leaf l).evaluate env).result = .error fault ↔
      (l.keep env env.registry.allSpans).result = .error fault := by
  have hfault : fault? (e.evaluate env).result =
      e.leaves.findSome? fun l => fault? (l.keep env env.registry.allSpans).result := by
    rw [result_evaluate, Outcome.fault?_map]
    exact fault?_keep env env.registry.allSpans e
  refine ⟨?_, fun fault => ?_, evaluate_leaf_error_iff env⟩
  · rw [← Outcome.fault?_ne_none_iff, hfault, Outcome.findSome?_fault?_ne_none_iff]
  · rw [← Outcome.fault?_eq_some_iff, hfault, Outcome.findSome?_fault?_eq_some_iff]

/-- The first branch keeps everything, and the second one, which has no operand, fails all the same. -/
theorem evaluate_error_iff_leaf_second :
    let env : Surroundings := ⟨.ofMatches [.bare "p" 0 5], false⟩
    let first : Leaf := ⟨.pattern, some "p", none⟩
    (first.keep env env.registry.allSpans).result = .ok env.registry.allSpans ∧
    ((group .either (leaf first) [leaf ⟨.metavariableRegex, none, none⟩]).evaluate env).result =
      .error (.schema (.wantsOperand .metavariableRegex)) := by
  intro env first
  have hkept : (first.keep env env.registry.allSpans).result = .ok env.registry.allSpans := rfl
  refine ⟨hkept, ((evaluate_error_iff_leaf env _).2.1 _).2 ⟨[first], _, [], rfl, ?_, rfl⟩⟩
  exact fun k hk => List.mem_singleton.1 hk ▸ ⟨_, hkept⟩

end RuleSieve.Expression
