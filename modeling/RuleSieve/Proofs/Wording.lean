/-
  What can be told from a message.

  A failure holds the wording of its cause and not the cause.  Still a unit without a rule and a rule
  without an expression can be told from all other causes: the wordings differ in how they begin.
-/
import RuleSieve.Engine

namespace RuleSieve

/-! ## First characters -/

/-- The text begins with the character. -/
def Begins (c : Char) (s : String) : Prop := s.toList.head? = some c

theorem Begins.append {c : Char} {s t : String} (h : Begins c s) : Begins c (s ++ t) := by
  rw [Begins, String.toList_append, List.head?_append, h]
  rfl

theorem Begins.unique {c d : Char} {s : String} (hc : Begins c s) (hd : Begins d s) : c = d :=
  Option.some.inj (hc.symm.trans hd)

/-- The names of operators begin with those of patterns and metavariables. -/
theorem LeafOperator.displayName_begins (op : LeafOperator) :
    Begins 'p' op.displayName ∨ Begins 'm' op.displayName := by
  cases op <;> first | exact .inl rfl | exact .inr rfl

theorem GroupOperator.displayName_begins (op : GroupOperator) : Begins 'p' op.displayName := by
  cases op <;> rfl

/-! ## A rule without an expression -/

/-- Only one problem begins with the rule. -/
theorem SchemaProblem.eq_noExpression_of_begins {problem : SchemaProblem}
    (h : Begins 'r' problem.message) : ∃ id, problem = .noExpression id := by
  have hother : ∀ c, c ≠ 'r' → ¬ Begins c problem.message := fun c hc hbegins =>
    hc (hbegins.unique h)
  -- what is said of an operator begins with its name
  have hop : ∀ (op : LeafOperator) (s : String), problem.message ≠ op.displayName ++ s := by
    intro op s hmessage
    rw [hmessage] at hother
    rcases op.displayName_begins with hp | hm
    · exact hother 'p' (by decide) hp.append
    · exact hother 'm' (by decide) hm.append
  cases problem with
  | noExpression id => exact ⟨id, rfl⟩
  | noParts op => exact (hother 'p' (by decide) (op.displayName_begins.append)).elim
  | leafWithParts op => exact (hother 'l' (by decide) (.append (.append rfl))).elim
  | groupWithOperand op => exact (hother 'c' (by decide) (.append (.append rfl))).elim
  | wantsText op => exact absurd rfl (hop op _)
  | wantsRecord op => exact absurd rfl (hop op _)
  | wantsOperand op => exact absurd rfl (hop op _)
  | wantsRegex name => exact (hother 'm' (by decide) (.append (.append rfl))).elim
  | wantsComparison name => exact (hother 'm' (by decide) (.append (.append rfl))).elim
  | notBoolean source value =>
    exact (hother 'w' (by decide) (.append (.append (.append rfl)))).elim

/-- Only one kind of fault begins as that of a schema. -/
theorem Fault.eq_schema_of_begins {fault : Fault} (h : Begins 's' fault.message) :
    ∃ problem, fault = .schema problem := by
  have hother : ∀ c, c ≠ 's' → ¬ Begins c fault.message := fun c hc hbegins =>
    hc (hbegins.unique h)
  cases fault with
  | schema problem => exact ⟨problem, rfl⟩
  | unknownOperator name => exact (hother 'u' (by decide) (.append (.append rfl))).elim
  | invalidRegex pattern problem =>
    exact (hother 'i' (by decide) (.append (.append (.append rfl)))).elim
  | invalidExpression source problem =>
    exact (hother 'i' (by decide) (.append (.append (.append rfl)))).elim
  | executionNotAllowed => exact (hother 'a' (by decide) (.append rfl)).elim
  | notBound name => exact (hother 'm' (by decide) (.append (.append rfl))).elim
  | fixNotBound name => exact (hother 'f' (by decide) (.append (.append rfl))).elim

/-- What is said of a rule without an expression is said of nothing else. -/
theorem Fault.eq_noExpression_of_message {fault : Fault} {id : String}
    (h : fault.message = (Fault.schema (.noExpression id)).message) :
    ∃ id', fault = .schema (.noExpression id') := by
  have hbegins : Begins 's' fault.message := by
    rw [h]
    exact .append rfl
  obtain ⟨problem, rfl⟩ := eq_schema_of_begins hbegins
  have hproblem : problem.message = (SchemaProblem.noExpression id).message :=
    (String.append_right_inj _).1 h
  have hbegins : Begins 'r' problem.message := by
    rw [hproblem]
    exact .append (.append rfl)
  obtain ⟨id', rfl⟩ := SchemaProblem.eq_noExpression_of_begins hbegins
  exact ⟨id', rfl⟩

theorem RuleFault.eq_noExpression_of_message {f : RuleFault} {id : String}
    (h : f.message = (RuleFault.mk f.ruleId (.schema (.noExpression id))).message) :
    ∃ id', f.fault = .schema (.noExpression id') :=
  Fault.eq_noExpression_of_message ((String.append_right_inj _).1 h)

/-! ## A unit without a rule -/

namespace Engine

/-- What is said of a unit whose rule is not known. -/
def unknownMessage (id : String) : String := s!"unknown rule id '{id}'"

theorem unknownMessage_injective {id id' : String} (h : unknownMessage id = unknownMessage id') :
    id = id' :=
  (String.append_right_inj _).1 ((String.append_left_inj _).1 h)

/-- A rule that fails is not said to be unknown. -/
theorem message_ne_unknownMessage (f : RuleFault) (id : String) : f.message ≠ unknownMessage id := by
  intro h
  have hrule : Begins 'r' f.message := .append (.append (.append rfl))
  have hunknown : Begins 'u' f.message := by
    rw [h]
    exact .append (.append rfl)
  exact absurd (hrule.unique hunknown) (by decide)

end Engine

end RuleSieve
