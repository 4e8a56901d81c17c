/-
  What each setting changes in a report.

  A setting is followed by comparing two batches that differ in nothing else.  It is enough to compare
  the reports of the units: what turns the one into the other, and goes through merging, turns the
  report of the one batch into that of the other (`evaluateAll_lift`).  Units that a setting takes out
  of a batch are counted as skipped, and nothing else is left of them (`evaluateAll_withDisabled`).
-/
import Mathlib.Data.List.Induction
import RuleSieve.Proofs.Permission
import RuleSieve.Proofs.UnitReport

namespace RuleSieve

/-! ## Changed settings -/

namespace Config

/-- The settings with other rules disabled. -/
def withDisabled (config : Config) (disabled : List String) : Config :=
  { config with rules := { config.rules with disabled } }

/-- The settings with another table of severities. -/
def withSeverities (config : Config) (severity : Dict Severity) : Config :=
  { config with rules := { config.rules with severity } }

/-- The settings with traces collected or not. -/
def collecting (config : Config) (collectTraces : Bool) : Config :=
  { config with evaluation := { config.evaluation with collectTraces } }

/-- The settings with predicates allowed to run or not. -/
def allowing (config : Config) (allowExec : Bool) : Config :=
  { config with evaluation := { config.evaluation with allowExec } }

theorem enables_iff {config : Config} {id : String} :
    config.enables id = true ↔ id ∉ config.rules.disabled := by
  simp [enables]

end Config

/-! ## Severities of findings -/

/-- The finding with the severity that is added for its rule, if there is one. -/
def Finding.regrade (added : Dict Severity) (f : Finding) : Finding :=
  { f with severity := (added.find? f.ruleId).getD f.severity }

namespace Rule

/-- The severity of a rule is copied to its findings, and goes nowhere else. -/
theorem evaluate_severity (rule : Rule) (severity : Severity) (ms : List Match) (allowExec : Bool) :
    ({ rule with severity } : Rule).evaluate ms allowExec =
      (rule.evaluate ms allowExec).map fun outcome =>
        (outcome.1.map fun f => { f with severity }, outcome.2) := by
  have hfinding : ∀ m, ({ rule with severity } : Rule).finding ms m =
      (rule.finding ms m).map fun f => { f with severity } := by
    intro m
    rw [finding_eq, finding_eq]
    show (rule.fixOf m).map _ = _
    cases rule.fixOf m <;> rfl
  have hfindings : ∀ kept, ({ rule with severity } : Rule).findings kept ms =
      (rule.findings kept ms).map fun fs => fs.map fun f => { f with severity } := by
    intro kept
    unfold findings
    rw [← Outcome.mapM_map]
    exact congrArg (List.mapM · _) (funext hfinding)
  have hjudge : (({ rule with severity } : Rule).judge ms allowExec).result =
      (rule.judge ms allowExec).result.map fun outcome =>
        (outcome.1.map fun f => { f with severity }, outcome.2) := by
    simp only [judge, Noted.result_bind, Noted.result_ofExcept, Noted.result_pure, hfindings]
    -- the severity has no part in what is kept
    show ((rule.keep ms allowExec).result >>= _) = _
    cases (rule.keep ms allowExec).result with
    | error fault => rfl
    | ok outcome =>
      show (((rule.findings outcome.1 ms).map _) >>= _) =
        ((rule.findings outcome.1 ms) >>= _ : Except Fault _).map _
      cases rule.findings outcome.1 ms <;> rfl
  rw [evaluate, evaluate, hjudge]
  cases (rule.judge ms allowExec).result <;> rfl

/-- The findings of a rule bear its id and its severity. -/
theorem mark_of_evaluate {rule : Rule} {ms : List Match} {allowExec : Bool} {fs : List Finding}
    {trace : Trace} (h : rule.evaluate ms allowExec = .ok (fs, trace)) :
    ∀ f ∈ fs, f.ruleId = rule.id ∧ f.severity = rule.severity := by
  obtain ⟨kept, -, hfs⟩ := evaluate_eq_ok_iff.1 h
  have hdescribes := findings_eq_ok_iff.1 hfs
  exact Outcome.forall_mem_of_forall₂ (hdescribes.imp fun _ _ hf => ⟨hf.ruleId, hf.severity⟩)

end Rule

/-! ## From units to batches -/

namespace Engine

variable {config config' : Config} {rules : List Rule} {units : List MatchUnit} {unit : MatchUnit}

/-- What turns the reports of units into those under other settings turns the report of a batch into
    that under the other settings, if it goes through merging. -/
theorem evaluateAll_lift {turn : Report → Report} (hempty : turn .empty = .empty)
    (hmerge : ∀ a b, turn (a.merge b) = (turn a).merge (turn b))
    (hunit : ∀ unit ∈ units, evaluateUnit config' rules unit = turn (evaluateUnit config rules unit)) :
    evaluateAll config' rules units = turn (evaluateAll config rules units) := by
  induction units using List.reverseRecOn with
  | nil => exact hempty.symm
  | append_singleton units unit ih =>
    rw [evaluateAll_concat, evaluateAll_concat, hmerge,
      ih fun u hu => hunit u (List.mem_append_left _ hu),
      hunit unit (List.mem_append_right _ (List.mem_singleton_self unit))]

/-! ### Disabled rules -/

/-- The unit is left out: its rule is known, and disabled. -/
def LeftOut (rules : List Rule) (disabled : List String) (unit : MatchUnit) : Prop :=
  ¬ Unknown rules unit ∧ unit.ruleId ∈ disabled

instance (rules : List Rule) (disabled : List String) : DecidablePred (LeftOut rules disabled) :=
  fun _ => inferInstanceAs (Decidable (_ ∧ _))

theorem evaluateUnit_withDisabled {disabled : List String} (h : config.rules.disabled ⊆ disabled)
    (unit : MatchUnit) : evaluateUnit (config.withDisabled disabled) rules unit =
      if LeftOut rules disabled unit then { skipped := 1 } else evaluateUnit config rules unit := by
  cases hrule : ruleFor? rules unit.ruleId with
  | none =>
    have hunknown : Unknown rules unit := ruleFor?_eq_none_iff_unknown.1 hrule
    rw [if_neg fun hout => hout.1 hunknown, evaluateUnit_of_none hrule, evaluateUnit_of_none hrule]
  | some rule =>
    obtain ⟨-, hid⟩ := ruleFor?_eq_some hrule
    have hknown := not_unknown hrule
    rw [evaluateUnit_of_some hrule, evaluateUnit_of_some hrule, hid]
    by_cases hdisabled : unit.ruleId ∈ disabled
    · have hout : LeftOut rules disabled unit := ⟨hknown, hdisabled⟩
      rw [if_neg fun he => Config.enables_iff.1 he hdisabled, if_pos hout]
    · -- what is not disabled now was not disabled before
      have hbefore : unit.ruleId ∉ config.rules.disabled := fun hmem => hdisabled (h hmem)
      have hout : ¬ LeftOut rules disabled unit := fun hout => hdisabled hout.2
      rw [if_pos (Config.enables_iff.2 hdisabled), if_neg hout,
        if_pos (Config.enables_iff.2 hbefore)]
      rfl

/-- Of the units that are left out nothing remains but their number. -/
theorem evaluateAll_withDisabled {disabled : List String} (h : config.rules.disabled ⊆ disabled)
    (units : List MatchUnit) : evaluateAll (config.withDisabled disabled) rules units =
      let report := evaluateAll config rules (units.filter (¬ LeftOut rules disabled ·))
      { report with skipped := report.skipped + units.countP (LeftOut rules disabled ·) } := by
  induction units using List.reverseRecOn with
  | nil => rfl
  | append_singleton units unit ih =>
    rw [evaluateAll_concat, evaluateUnit_withDisabled h, ih, List.filter_append, List.countP_append,
      List.countP_singleton]
    by_cases hout : LeftOut rules disabled unit
    · simp [hout, Report.merge, Timing.mergeAll, Nat.add_assoc]
    · simp [hout, evaluateAll_concat, Report.merge]
      omega

/-! ### Severities -/

/-- The report with the severities that are added for the rules of its findings. -/
def regrade (added : Dict Severity) (report : Report) : Report :=
  { report with findings := report.findings.map (Finding.regrade added) }

theorem regrade_merge (added : Dict Severity) (a b : Report) :
    regrade added (a.merge b) = (regrade added a).merge (regrade added b) := by
  simp [regrade, Report.merge]

/-- What is added for a rule comes before what it had. -/
theorem evaluate_withSeverities (severity : Dict Severity) (rule : Rule) (ms : List Match)
    (allowExec : Bool) :
    (withSeverity (config.withSeverities severity) rule).evaluate ms allowExec =
      ((withSeverity config rule).evaluate ms allowExec).map fun outcome =>
        (outcome.1.map fun f => { f with severity := (severity.find? rule.id).getD rule.severity },
          outcome.2) :=
  (withSeverity config rule).evaluate_severity ((severity.find? rule.id).getD rule.severity) ms
    allowExec

/-- The findings of a rule are regraded as the rule is. -/
theorem foundReport_regrade {severity added : Dict Severity}
    (h : ∀ id, severity.find? id = (added.find? id).or (config.severity? id)) {rule : Rule}
    {fs : List Finding} {trace : Trace}
    (hmark : ∀ f ∈ fs, f.ruleId = rule.id ∧ f.severity = (withSeverity config rule).severity) :
    foundReport (config.withSeverities severity) rule unit
        (fs.map fun f => { f with severity := (severity.find? rule.id).getD rule.severity }) trace =
      regrade added (foundReport config rule unit fs trace) := by
  have hfindings : (fs.map fun f =>
        { f with severity := (severity.find? rule.id).getD rule.severity }).map
        (fun f => { f with path := unit.path }) =
      (fs.map fun f => { f with path := unit.path }).map (Finding.regrade added) := by
    rw [List.map_map, List.map_map]
    refine List.map_congr_left fun f hf => ?_
    obtain ⟨hid, hseverity⟩ := hmark f hf
    have hadded : (severity.find? rule.id).getD rule.severity =
        (added.find? f.ruleId).getD f.severity := by
      rw [hid, hseverity, h]
      show _ = (added.find? rule.id).getD ((config.severity? rule.id).getD rule.severity)
      cases added.find? rule.id <;> rfl
    show { f with path := unit.path, severity := _ } = Finding.regrade added { f with path := _ }
    rw [hadded]
    rfl
  simp only [foundReport, regrade, List.length_map, hfindings]
  rfl

theorem evaluateUnit_withSeverities {severity added : Dict Severity}
    (h : ∀ id, severity.find? id = (added.find? id).or (config.severity? id)) (unit : MatchUnit) :
    evaluateUnit (config.withSeverities severity) rules unit =
      regrade added (evaluateUnit config rules unit) := by
  have hgives := evaluateUnit_gives config rules unit
  generalize evaluateUnit config rules unit = report at hgives
  cases hgives with
  | unknown hunknown =>
    exact evaluateUnit_of_none (ruleFor?_eq_none_iff_unknown.2 hunknown)
  | disabled hrule hdisabled =>
    rw [evaluateUnit_of_some hrule]
    exact if_neg (Bool.eq_false_iff.1 hdisabled)
  | @failed rule fault hrule henabled hfault =>
    have hfault' : (withSeverity (config.withSeverities severity) rule).evaluate unit.found
        config.evaluation.allowExec = .error fault := by
      rw [evaluate_withSeverities, hfault]
      rfl
    rw [evaluateUnit_of_some hrule]
    exact (if_pos henabled).trans (evaluateRule_of_error hfault')
  | @found rule fs trace hrule henabled hfound =>
    have hfound' : (withSeverity (config.withSeverities severity) rule).evaluate unit.found
        config.evaluation.allowExec =
          .ok (fs.map fun f => { f with severity := (severity.find? rule.id).getD rule.severity },
            trace) := by
      rw [evaluate_withSeverities, hfound]
      rfl
    rw [evaluateUnit_of_some hrule]
    refine (if_pos henabled).trans ((evaluateRule_of_ok hfound').trans ?_)
    exact foundReport_regrade h (Rule.mark_of_evaluate hfound)

theorem evaluateAll_withSeverities {severity added : Dict Severity}
    (h : ∀ id, severity.find? id = (added.find? id).or (config.severity? id))
    (units : List MatchUnit) : evaluateAll (config.withSeverities severity) rules units =
      regrade added (evaluateAll config rules units) :=
  evaluateAll_lift rfl (regrade_merge added) fun unit _ => evaluateUnit_withSeverities h unit

/-! ### Traces -/

/-- The report without its traces. -/
def forgetTraces (report : Report) : Report := { report with traces := [] }

theorem evaluateUnit_forgetTraces (unit : MatchUnit) :
    evaluateUnit (config.collecting false) rules unit =
      forgetTraces (evaluateUnit config rules unit) := by
  have hgives := evaluateUnit_gives config rules unit
  generalize evaluateUnit config rules unit = report at hgives
  cases hgives with
  | unknown hunknown => exact evaluateUnit_of_none (ruleFor?_eq_none_iff_unknown.2 hunknown)
  | disabled hrule hdisabled =>
    rw [evaluateUnit_of_some hrule]
    exact if_neg (Bool.eq_false_iff.1 hdisabled)
  | failed hrule henabled hfault =>
    rw [evaluateUnit_of_some hrule]
    exact (if_pos henabled).trans (evaluateRule_of_error hfault)
  | found hrule henabled hfound =>
    rw [evaluateUnit_of_some hrule]
    exact (if_pos henabled).trans (evaluateRule_of_ok hfound)

theorem evaluateAll_forgetTraces (config : Config) (rules : List Rule) (units : List MatchUnit) :
    evaluateAll (config.collecting false) rules units =
      forgetTraces (evaluateAll config rules units) :=
  evaluateAll_lift rfl (fun _ _ => rfl) fun unit _ => evaluateUnit_forgetTraces unit

/-! ### Permission -/

/-- The rule of the unit is known, and runs predicates. -/
def NeedsExec (rules : List Rule) (unit : MatchUnit) : Prop :=
  ∃ rule ∈ ruleFor? rules unit.ruleId, rule.needsExec = true

instance (rules : List Rule) : DecidablePred (NeedsExec rules) := fun _ =>
  inferInstanceAs (Decidable (∃ _ ∈ _, _))

theorem evaluateUnit_allowing (allowExec : Bool) (h : ¬ NeedsExec rules unit) :
    evaluateUnit (config.allowing allowExec) rules unit = evaluateUnit config rules unit := by
  cases hrule : ruleFor? rules unit.ruleId with
  | none => rw [evaluateUnit_of_none hrule, evaluateUnit_of_none hrule]
  | some rule =>
    have hneeds : rule.needsExec = false :=
      Bool.eq_false_iff.2 fun hneeds => h ⟨rule, hrule, hneeds⟩
    have hkeep : (withSeverity config rule).keep unit.found allowExec =
        (withSeverity config rule).keep unit.found config.evaluation.allowExec :=
      Rule.keep_eq_of_not_needsExec hneeds _ _
    have hevaluate : (withSeverity config rule).evaluate unit.found allowExec =
        (withSeverity config rule).evaluate unit.found config.evaluation.allowExec := by
      rw [Rule.evaluate, Rule.judge, hkeep]
      rfl
    have hreport : evaluateRule (config.allowing allowExec) rule unit =
        evaluateRule config rule unit := by
      cases hout : (withSeverity config rule).evaluate unit.found config.evaluation.allowExec with
      | error fault =>
        rw [evaluateRule_of_error hout]
        exact evaluateRule_of_error (hevaluate.trans hout)
      | ok outcome =>
        rw [evaluateRule_of_ok hout]
        exact evaluateRule_of_ok (hevaluate.trans hout)
    rw [evaluateUnit_of_some hrule, evaluateUnit_of_some hrule, hreport]
    rfl

/-- Units whose rules run no predicates contribute to a batch what they did before. -/
theorem evaluateAll_allowing (config : Config) (rules : List Rule) (allowExec : Bool)
    (units : List MatchUnit) : evaluateAll (config.allowing allowExec) rules units =
      (units.map fun unit => if NeedsExec rules unit
        then evaluateUnit (config.allowing allowExec) rules unit
        else evaluateUnit config rules unit).foldl Report.merge .empty := by
  have hunits : ∀ unit ∈ units, evaluateUnit (config.allowing allowExec) rules unit =
      if NeedsExec rules unit then evaluateUnit (config.allowing allowExec) rules unit
      else evaluateUnit config rules unit := by
    intro unit _
    split
    · rfl
    · next hneeds => exact evaluateUnit_allowing allowExec hneeds
  rw [evaluateAll, List.map_congr_left hunits]

/-! ## All settings -/

/-- What each setting changes.  If more rules are disabled, the report is that of the units whose rule
    is unknown or not disabled, and the others are counted as skipped.  If severities are added, the
    findings of their rules get them, and nothing else changes.  Whether traces are collected makes a
    difference to the traces only.  Whether predicates may run makes no difference to what a unit
    contributes whose rule runs none. -/
theorem evaluateAll_settings (config : Config) (rules : List Rule) (units : List MatchUnit) :
    (∀ disabled, config.rules.disabled ⊆ disabled →
      evaluateAll (config.withDisabled disabled) rules units =
        let report := evaluateAll config rules (units.filter (¬ LeftOut rules disabled ·))
        { report with skipped := report.skipped + units.countP (LeftOut rules disabled ·) }) ∧
    (∀ severity added : Dict Severity,
      (∀ id, severity.find? id = (added.find? id).or (config.severity? id)) →
      evaluateAll (config.withSeverities severity) rules units =
        { evaluateAll config rules units with
          findings := (evaluateAll config rules units).findings.map (Finding.regrade added) }) ∧
    (∀ collectTraces,
      { evaluateAll (config.collecting collectTraces) rules units with traces := [] } =
        { evaluateAll config rules units with traces := [] }) ∧
    (∀ allowExec,
      (∀ unit, ¬ NeedsExec rules unit →
        evaluateUnit (config.allowing allowExec) rules unit = evaluateUnit config rules unit) ∧
      evaluateAll (config.allowing allowExec) rules units =
        (units.map fun unit => if NeedsExec rules unit
          then evaluateUnit (config.allowing allowExec) rules unit
          else evaluateUnit config rules unit).foldl Report.merge .empty) := by
  refine ⟨fun disabled h => evaluateAll_withDisabled h units,
    fun severity added h => evaluateAll_withSeverities h units, fun collectTraces => ?_,
    fun allowExec => ⟨fun unit hneeds => evaluateUnit_allowing allowExec hneeds,
      evaluateAll_allowing config rules allowExec units⟩⟩
  -- without traces both batches are the one in which none are collected
  calc forgetTraces (evaluateAll (config.collecting collectTraces) rules units)
    _ = evaluateAll (config.collecting false) rules units :=
        (evaluateAll_forgetTraces (config.collecting collectTraces) rules units).symm
    _ = forgetTraces (evaluateAll config rules units) :=
        evaluateAll_forgetTraces config rules units

/-- If the rule with a predicate is disabled, the two other units are reported as they would be alone.
    A severity that is added for the rule that finds something goes to its finding.  The unit of that
    rule does not notice whether predicates may run. -/
theorem evaluateAll_settings_mixed :
    evaluateAll (Config.withDisabled {} ["where"]) mixedRules mixedUnits =
      { evaluateAll {} mixedRules (mixedUnits.drop 1) with skipped := 1 } ∧
    (evaluateAll (Config.withSeverities {} [("all", .error)]) mixedRules mixedUnits).findings =
      (evaluateAll {} mixedRules mixedUnits).findings.map (Finding.regrade [("all", .error)]) ∧
    (evaluateAll (Config.withSeverities {} [("all", .error)]) mixedRules mixedUnits).findings.map
      (·.severity) = [.error] ∧
    evaluateUnit (Config.allowing {} true) mixedRules ⟨"all", some "b.py", [.bare "p" 0 5]⟩ =
      evaluateUnit {} mixedRules ⟨"all", some "b.py", [.bare "p" 0 5]⟩ := by
  obtain ⟨hdisabled, hseverity, -, hallow⟩ := evaluateAll_settings {} mixedRules mixedUnits
  refine ⟨?_, ?_, by decide +kernel, (hallow true).1 _ (by decide +kernel)⟩
  · have hkept : mixedUnits.filter (¬ LeftOut mixedRules ["where"] ·) = mixedUnits.drop 1 := by
      decide +kernel
    rw [hdisabled ["where"] (List.nil_subset _), hkept]
    rfl
  · rw [hseverity [("all", .error)] [("all", .error)] fun id => (Option.or_none).symm]

end Engine

end RuleSieve
