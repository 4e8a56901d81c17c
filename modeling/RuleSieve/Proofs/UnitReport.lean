/-
  What one unit adds to a report.

  The rule of a unit is looked up by its id, and whether it is enabled is asked only after it was
  found.  Then the rule is evaluated, or the unit is left out.  So the report of a unit is one of four
  (`evaluateUnit_gives`), and whatever holds of the report of a batch is first shown for these.
-/
import RuleSieve.Proofs.Batch

namespace RuleSieve.Engine

variable {config : Config} {rules : List Rule} {rule : Rule} {unit : MatchUnit} {id : String}

/-! ## The rule of a unit -/

/-- No rule has the id of the unit. -/
def Unknown (rules : List Rule) (unit : MatchUnit) : Prop := ∀ rule ∈ rules, rule.id ≠ unit.ruleId

instance (rules : List Rule) : DecidablePred (Unknown rules) := fun _ =>
  inferInstanceAs (Decidable (∀ _ ∈ _, _))

/-- No rule is found for an id just if none has it. -/
theorem ruleFor?_eq_none_iff : ruleFor? rules id = none ↔ ∀ rule ∈ rules, rule.id ≠ id := by
  simp [ruleFor?, List.find?_eq_none]

theorem ruleFor?_eq_none_iff_unknown : ruleFor? rules unit.ruleId = none ↔ Unknown rules unit :=
  ruleFor?_eq_none_iff

/-- A rule that is found is one of the rules, and has the id. -/
theorem find?_id_eq_some (h : rules.find? (·.id == id) = some rule) : rule ∈ rules ∧ rule.id = id :=
  ⟨List.mem_of_find?_eq_some h, by simpa using List.find?_some h⟩

/-- A rule that is found for an id has the id. -/
theorem ruleFor?_eq_some (h : ruleFor? rules id = some rule) : rule ∈ rules ∧ rule.id = id := by
  obtain ⟨hmem, hid⟩ := find?_id_eq_some h
  exact ⟨List.mem_reverse.1 hmem, hid⟩

theorem not_unknown (h : ruleFor? rules unit.ruleId = some rule) : ¬ Unknown rules unit := by
  obtain ⟨hmem, hid⟩ := ruleFor?_eq_some h
  exact fun hunknown => hunknown rule hmem hid

/-! ## The report of a unit -/

/-- The report of a unit whose rule failed. -/
def failedReport (rule : Rule) (unit : MatchUnit) (fault : RuleFault) : Report :=
  { failures := [⟨fault.ruleId, unit.path, fault.fault.kind, fault.message⟩]
    processed := 1
    timings := [(rule.id, ⟨rule.id, 0, 1, 0⟩)] }

/-- The report of a unit whose rule has findings, or found that there are none. -/
def foundReport (config : Config) (rule : Rule) (unit : MatchUnit) (fs : List Finding)
    (trace : Trace) : Report :=
  { findings := fs.map fun f => { f with path := unit.path }
    traces := if config.evaluation.collectTraces then [⟨rule.id, unit.path, trace⟩] else []
    processed := 1
    timings := [(rule.id, ⟨rule.id, 0, 1, fs.length⟩)] }

/-- A rule that fails gives the report of its failure. -/
theorem evaluateRule_of_error {fault : RuleFault}
    (h : (withSeverity config rule).evaluate unit.found config.evaluation.allowExec =
      .error fault) : evaluateRule config rule unit = failedReport rule unit fault := by
  rw [evaluateRule, h, failedReport]

/-- A rule that succeeds gives the report of its findings. -/
theorem evaluateRule_of_ok {fs : List Finding} {trace : Trace}
    (h : (withSeverity config rule).evaluate unit.found config.evaluation.allowExec =
      .ok (fs, trace)) : evaluateRule config rule unit = foundReport config rule unit fs trace := by
  rw [evaluateRule, h, foundReport]

/-- What the report of a unit can be, and when it is that. -/
inductive Gives (config : Config) (rules : List Rule) (unit : MatchUnit) : Report → Prop
  | unknown (hunknown : Unknown rules unit) : Gives config rules unit (unknownRule unit)
  | disabled {rule : Rule} (hrule : ruleFor? rules unit.ruleId = some rule)
      (hdisabled : config.enables rule.id = false) : Gives config rules unit { skipped := 1 }
  | failed {rule : Rule} {fault : RuleFault} (hrule : ruleFor? rules unit.ruleId = some rule)
      (henabled : config.enables rule.id = true)
      (hfault : (withSeverity config rule).evaluate unit.found config.evaluation.allowExec =
        .error fault) : Gives config rules unit (failedReport rule unit fault)
  | found {rule : Rule} {fs : List Finding} {trace : Trace}
      (hrule : ruleFor? rules unit.ruleId = some rule) (henabled : config.enables rule.id = true)
      (hfound : (withSeverity config rule).evaluate unit.found config.evaluation.allowExec =
        .ok (fs, trace)) : Gives config rules unit (foundReport config rule unit fs trace)

theorem evaluateUnit_of_none (h : ruleFor? rules unit.ruleId = none) :
    evaluateUnit config rules unit = unknownRule unit := by
  rw [evaluateUnit, h]

theorem evaluateUnit_of_some (h : ruleFor? rules unit.ruleId = some rule) :
    evaluateUnit config rules unit =
      if config.enables rule.id then evaluateRule config rule unit else { skipped := 1 } := by
  rw [evaluateUnit, h]

/-- The report of a unit is one of the four. -/
theorem evaluateUnit_gives (config : Config) (rules : List Rule) (unit : MatchUnit) :
    Gives config rules unit (evaluateUnit config rules unit) := by
  cases hrule : ruleFor? rules unit.ruleId with
  | none =>
    rw [evaluateUnit_of_none hrule]
    exact .unknown (ruleFor?_eq_none_iff_unknown.1 hrule)
  | some rule =>
    rw [evaluateUnit_of_some hrule]
    cases henabled : config.enables rule.id with
    | false =>
      rw [if_neg Bool.false_ne_true]
      exact .disabled hrule henabled
    | true =>
      rw [if_pos rfl]
      cases hout : (withSeverity config rule).evaluate unit.found config.evaluation.allowExec with
      | error fault =>
        rw [evaluateRule_of_error hout]
        exact .failed hrule henabled hout
      | ok outcome =>
        rw [evaluateRule_of_ok hout]
        exact .found hrule henabled hout

/-! ## The report of a batch -/

/-- The failures of a batch are those of its units. -/
theorem mem_failures_evaluateAll {units : List MatchUnit} {f : Failure} :
    f ∈ (evaluateAll config rules units).failures ↔
      ∃ unit ∈ units, f ∈ (evaluateUnit config rules unit).failures := by
  rw [(evaluateAll_joins config rules units).failures, List.flatMap_map, List.mem_flatMap]

/-- The message of a failure names its rule, so that a text which shows only the message does too. -/
theorem ruleId_infix_message {units : List MatchUnit} {f : Failure}
    (h : f ∈ (evaluateAll config rules units).failures) : f.ruleId.toList <:+: f.message.toList := by
  obtain ⟨unit, -, hf⟩ := mem_failures_evaluateAll.1 h
  have hgives := evaluateUnit_gives config rules unit
  generalize evaluateUnit config rules unit = report at hf hgives
  cases hgives with
  | unknown hunknown =>
    obtain rfl := List.mem_singleton.1 hf
    exact ⟨"unknown rule id '".toList, "'".toList, by simp [toString]⟩
  | disabled hrule hdisabled => cases hf
  | @failed rule fault hrule henabled hfault =>
    obtain rfl := List.mem_singleton.1 hf
    exact ⟨"rule '".toList, ("': " ++ fault.fault.message).toList, by
      simp [RuleFault.message, toString]⟩
  | found hrule henabled hfound => cases hf

/-- A batch with one more unit at its end. -/
theorem evaluateAll_concat (units : List MatchUnit) (unit : MatchUnit) :
    evaluateAll config rules (units ++ [unit]) =
      (evaluateAll config rules units).merge (evaluateUnit config rules unit) := by
  simp only [evaluateAll, List.map_append, List.map_singleton, List.foldl_append, List.foldl_cons,
    List.foldl_nil]

end RuleSieve.Engine
