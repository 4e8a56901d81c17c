/-
  Files of rules that can be used.

  A file is accepted if every rule has an id, every rule that searches has an expression, and no two
  rules have the same id (`RuleFile.check_eq_ok_iff`).  The engine looks a rule up from the end of the
  list and the file from its start.  If the ids differ there is only one rule to be found, so both find
  it (`RuleFile.Usable.ruleFor?_eq`), and what was checked is true of the rule that runs.
-/
import Mathlib.Data.List.Nodup
import Mathlib.Data.List.TakeWhile
import RuleSieve.Proofs.Causes
import RuleSieve.Proofs.UnitReport
import RuleSieve.Proofs.Wording

namespace RuleSieve

/-! ## Blank texts -/

/-- Nothing is left of a text just if it has nothing but blanks. -/
theorem Text.trim_eq_nil_iff {cs : List Char} : trim cs = [] ↔ ∀ c ∈ cs, isBlank c = true := by
  have hleft : trim cs = [] ↔ ∀ c ∈ cs.dropWhile isBlank, isBlank c = true := by
    rw [trim, trimBy, dropEndWhile, List.reverse_eq_nil_iff, List.dropWhile_eq_nil_iff]
    simp only [List.mem_reverse]
  rw [hleft, ← List.dropWhile_eq_nil_iff (p := isBlank) (l := cs)]
  constructor
  · intro h
    by_contra hne
    -- what is left begins with a character that is not dropped
    have hhead := List.head_dropWhile_not isBlank hne
    rw [h _ (List.head_mem hne)] at hhead
    cases hhead
  · intro h c hc
    rw [h] at hc
    cases hc

/-! ## What is checked -/

/-- The id of the rule is not blank, and if the rule searches it has an expression. -/
structure Rule.Usable (rule : Rule) : Prop where
  named : ∃ c ∈ rule.id.toList, Text.isBlank c = false
  complete : rule.mode = .search → ∃ e, rule.expression = some e

theorem Rule.check_eq_ok_iff {rule : Rule} : rule.check = .ok () ↔ rule.Usable := by
  have hblank : (Text.trim rule.id.toList).isEmpty = false ↔
      ∃ c ∈ rule.id.toList, Text.isBlank c = false := by
    rw [List.isEmpty_eq_false_iff, ne_eq, Text.trim_eq_nil_iff]
    simp
  have hcomplete : (rule.mode = .search && rule.expression.isNone) = false ↔
      (rule.mode = .search → ∃ e, rule.expression = some e) := by
    cases rule.mode <;> cases rule.expression <;> simp
  rw [check]
  constructor
  · intro h
    split at h
    · cases h
    · split at h
      · cases h
      · next hid hexpression =>
        exact ⟨hblank.1 (Bool.eq_false_iff.2 hid), hcomplete.1 (Bool.eq_false_iff.2 hexpression)⟩
  · intro h
    rw [hblank.2 h.named, hcomplete.2 h.complete]
    rfl

namespace RuleFile

/-- Every rule can be used, and no two have the same id. -/
structure Usable (file : RuleFile) : Prop where
  each : ∀ rule ∈ file.rules, rule.Usable
  distinct : (file.rules.map Rule.id).Nodup

variable {file : RuleFile} {rule : Rule} {id : String}

/-- The ids that were seen are those that the rules must not have. -/
theorem checkFrom_eq_ok_iff {seen : List String} {rules : List Rule} :
    checkFrom seen rules = .ok () ↔ (∀ rule ∈ rules, rule.Usable) ∧ (rules.map Rule.id).Nodup ∧
      ∀ rule ∈ rules, rule.id ∉ seen := by
  induction rules generalizing seen with
  | nil => simp [checkFrom]
  | cons rule rules ih =>
    rw [checkFrom, Outcome.bind_eq_ok_iff]
    constructor
    · rintro ⟨⟨⟩, hcheck, h⟩
      split at h
      · cases h
      · next hseen =>
        obtain ⟨heach, hdistinct, hrest⟩ := ih.1 h
        have hid : rule.id ∉ rules.map Rule.id := by
          intro hmem
          obtain ⟨other, hother, hsame⟩ := List.mem_map.1 hmem
          exact hrest other hother (by rw [hsame]; exact List.mem_cons_self)
        refine ⟨List.forall_mem_cons.2 ⟨Rule.check_eq_ok_iff.1 hcheck, heach⟩, ?_,
          List.forall_mem_cons.2 ⟨by simpa using hseen, fun other hother hmem => ?_⟩⟩
        · rw [List.map_cons, List.nodup_cons]
          exact ⟨hid, hdistinct⟩
        · exact hrest other hother (List.mem_cons_of_mem _ hmem)
    · rintro ⟨heach, hdistinct, hseen⟩
      obtain ⟨husable, heach⟩ := List.forall_mem_cons.1 heach
      obtain ⟨hfirst, hseen⟩ := List.forall_mem_cons.1 hseen
      rw [List.map_cons, List.nodup_cons] at hdistinct
      refine ⟨(), Rule.check_eq_ok_iff.2 husable, ?_⟩
      rw [if_neg (by simpa using hfirst), ih]
      refine ⟨heach, hdistinct.2, fun other hother hmem => ?_⟩
      rcases List.mem_cons.1 hmem with hsame | hmem
      · exact hdistinct.1 (List.mem_map.2 ⟨other, hother, hsame⟩)
      · exact hseen other hother hmem

/-- What it takes for a file to be accepted. -/
theorem check_eq_ok_iff : file.check = .ok () ↔ file.Usable := by
  rw [check, checkFrom_eq_ok_iff]
  constructor
  · rintro ⟨heach, hdistinct, -⟩
    exact ⟨heach, hdistinct⟩
  · rintro ⟨heach, hdistinct⟩
    exact ⟨heach, hdistinct, fun _ _ => List.not_mem_nil⟩

/-! ## Two ways to look up a rule -/

theorem find?_eq_none_iff : file.find? id = none ↔ ∀ rule ∈ file.rules, rule.id ≠ id := by
  simp [find?, List.find?_eq_none]

/-- If the ids differ, it makes no difference from which end a rule is looked up. -/
theorem Usable.ruleFor?_eq (h : file.Usable) (id : String) :
    Engine.ruleFor? file.rules id = file.find? id := by
  cases hrule : Engine.ruleFor? file.rules id with
  | none => exact (find?_eq_none_iff.2 (Engine.ruleFor?_eq_none_iff.1 hrule)).symm
  | some rule =>
    obtain ⟨hmem, hid⟩ := Engine.ruleFor?_eq_some hrule
    cases hfound : file.find? id with
    | none => exact absurd hid (find?_eq_none_iff.1 hfound rule hmem)
    | some found =>
      obtain ⟨hmem', hid'⟩ := Engine.find?_id_eq_some hfound
      rw [List.inj_on_of_nodup_map h.distinct hmem hmem' (hid.trans hid'.symm)]

end RuleFile

/-! ## Rules that run -/

/-- A rule that can be used does not fail for want of an expression. -/
theorem Rule.Usable.evaluate_ne {rule : Rule} (h : rule.Usable) (ms : List Match) (allowExec : Bool)
    (id id' : String) : rule.evaluate ms allowExec ≠ .error ⟨id, .schema (.noExpression id')⟩ := by
  intro hfault
  rw [evaluate_eq_error_iff, ← fails_iff] at hfault
  cases hfault.2 with
  | noExpression hmode hnone =>
    obtain ⟨e, he⟩ := h.complete hmode
    rw [he] at hnone
    cases hnone
  | expression hmode he hfault =>
    obtain ⟨l, -, hl⟩ := Expression.evaluate_fails hfault
    cases hl
  | fix hsurvive htemplate hbefore hfault =>
    obtain ⟨name, hname⟩ := Template.fillFix_fails hfault
    cases hname

namespace Engine

variable {config : Config} {rules : List Rule} {unit : MatchUnit}

/-- The report of a unit after its rule was looked up. -/
def reportFor (config : Config) (found : Option Rule) (unit : MatchUnit) : Report :=
  match found with
  | none => unknownRule unit
  | some rule => if config.enables rule.id then evaluateRule config rule unit else { skipped := 1 }

theorem evaluateUnit_eq_reportFor (config : Config) (rules : List Rule) (unit : MatchUnit) :
    evaluateUnit config rules unit = reportFor config (ruleFor? rules unit.ruleId) unit := by
  unfold evaluateUnit reportFor
  cases ruleFor? rules unit.ruleId <;> rfl

variable {report : Report}

/-- Only a unit whose rule is not known is said to have no rule. -/
theorem Gives.unknownMessage_iff (h : Gives config rules unit report) {id : String} :
    (∃ f ∈ report.failures, f.message = unknownMessage id) ↔
      unit.ruleId = id ∧ Unknown rules unit := by
  cases h with
  | unknown hunknown =>
    constructor
    · rintro ⟨f, hf, hmessage⟩
      obtain rfl := List.mem_singleton.1 hf
      exact ⟨unknownMessage_injective hmessage, hunknown⟩
    · rintro ⟨rfl, -⟩
      exact ⟨_, List.mem_singleton_self _, rfl⟩
  | disabled hrule hdisabled =>
    refine iff_of_false ?_ fun h => not_unknown hrule h.2
    rintro ⟨f, hf, -⟩
    cases hf
  | @failed rule fault hrule henabled hfault =>
    refine iff_of_false ?_ fun h => not_unknown hrule h.2
    rintro ⟨f, hf, hmessage⟩
    obtain rfl := List.mem_singleton.1 hf
    exact message_ne_unknownMessage fault id hmessage
  | found hrule henabled hfound =>
    refine iff_of_false ?_ fun h => not_unknown hrule h.2
    rintro ⟨f, hf, -⟩
    cases hf

/-- If all rules can be used, no unit is said to have a rule without an expression. -/
theorem Gives.message_ne (h : Gives config rules unit report)
    (husable : ∀ rule ∈ rules, rule.Usable) {f : Failure} (hf : f ∈ report.failures) (id : String) :
    f.message ≠ (RuleFault.mk f.ruleId (.schema (.noExpression id))).message := by
  cases h with
  | unknown hunknown =>
    obtain rfl := List.mem_singleton.1 hf
    exact (message_ne_unknownMessage _ unit.ruleId).symm
  | disabled hrule hdisabled => cases hf
  | @failed rule fault hrule henabled hfault =>
    obtain rfl := List.mem_singleton.1 hf
    intro hmessage
    obtain ⟨id', hid'⟩ := RuleFault.eq_noExpression_of_message hmessage
    -- the settings change nothing of the rule but its severity
    have hsevere : (withSeverity config rule).Usable := by
      obtain ⟨hnamed, hcomplete⟩ := husable rule (ruleFor?_eq_some hrule).1
      exact ⟨hnamed, hcomplete⟩
    refine hsevere.evaluate_ne unit.found config.evaluation.allowExec fault.ruleId id' ?_
    rw [hfault, ← hid']
  | found hrule henabled hfound => cases hf

end Engine

/-! ## A file that was accepted -/

namespace RuleFile

/-- A file is accepted just if every rule has an id that is not blank, every rule that searches has an
    expression, and no two rules have the same id.  Then a unit is evaluated by the rule that the file
    has under its id; it is said to have no rule just if the file has none; and no rule fails for want
    of an expression. -/
theorem check_resolves (file : RuleFile) :
    (file.check = .ok () ↔
      (∀ rule ∈ file.rules, ∃ c ∈ rule.id.toList, Text.isBlank c = false) ∧
      (∀ rule ∈ file.rules, rule.mode = .search → ∃ e, rule.expression = some e) ∧
      (file.rules.map Rule.id).Nodup) ∧
    (file.check = .ok () → ∀ (config : Config) (units : List MatchUnit),
      (∀ id, Engine.ruleFor? file.rules id = file.find? id) ∧
      Engine.evaluateAll config file.rules units =
        (units.map fun unit => Engine.reportFor config (file.find? unit.ruleId) unit).foldl
          Report.merge .empty ∧
      (∀ unit ∈ units, (∃ f ∈ (Engine.evaluateUnit config file.rules unit).failures,
        f.message = Engine.unknownMessage unit.ruleId) ↔ file.find? unit.ruleId = none) ∧
      (∀ id, (∃ f ∈ (Engine.evaluateAll config file.rules units).failures,
        f.message = Engine.unknownMessage id) ↔
          (∃ unit ∈ units, unit.ruleId = id) ∧ file.find? id = none) ∧
      (∀ rule ∈ file.rules, ∀ ms allowExec id id',
        rule.evaluate ms allowExec ≠ .error ⟨id, .schema (.noExpression id')⟩) ∧
      ∀ f ∈ (Engine.evaluateAll config file.rules units).failures, ∀ id,
        f.message ≠ (RuleFault.mk f.ruleId (.schema (.noExpression id))).message) := by
  refine ⟨?_, fun h config units => ?_⟩
  · rw [check_eq_ok_iff]
    constructor
    · rintro ⟨heach, hdistinct⟩
      exact ⟨fun rule hrule => (heach rule hrule).named, fun rule hrule => (heach rule hrule).complete,
        hdistinct⟩
    · rintro ⟨hnamed, hcomplete, hdistinct⟩
      exact ⟨fun rule hrule => ⟨hnamed rule hrule, hcomplete rule hrule⟩, hdistinct⟩
  · have husable := check_eq_ok_iff.1 h
    have hunknown : ∀ unit : MatchUnit,
        Engine.Unknown file.rules unit ↔ file.find? unit.ruleId = none := fun _ =>
      find?_eq_none_iff.symm
    refine ⟨husable.ruleFor?_eq, ?_, fun unit _ => ?_, fun id => ?_,
      fun rule hrule => (husable.each rule hrule).evaluate_ne, fun f hf id => ?_⟩
    · simp only [Engine.evaluateAll, ← husable.ruleFor?_eq, ← Engine.evaluateUnit_eq_reportFor]
    · rw [(Engine.evaluateUnit_gives config file.rules unit).unknownMessage_iff, hunknown]
      exact and_iff_right rfl
    · constructor
      · rintro ⟨f, hf, hmessage⟩
        obtain ⟨unit, hunit, hf⟩ := Engine.mem_failures_evaluateAll.1 hf
        have hgives := Engine.evaluateUnit_gives config file.rules unit
        obtain ⟨rfl, hnone⟩ := hgives.unknownMessage_iff.1 ⟨f, hf, hmessage⟩
        exact ⟨⟨unit, hunit, rfl⟩, (hunknown unit).1 hnone⟩
      · rintro ⟨⟨unit, hunit, rfl⟩, hnone⟩
        have hgives := Engine.evaluateUnit_gives config file.rules unit
        obtain ⟨f, hf, hmessage⟩ := hgives.unknownMessage_iff.2 ⟨rfl, (hunknown unit).2 hnone⟩
        exact ⟨f, Engine.mem_failures_evaluateAll.2 ⟨unit, hunit, hf⟩, hmessage⟩
    · obtain ⟨unit, -, hf⟩ := Engine.mem_failures_evaluateAll.1 hf
      exact (Engine.evaluateUnit_gives config file.rules unit).message_ne husable.each hf id

/-- A rule that keeps everything, which needs no expression, and one that has one. -/
def twoRules : RuleFile :=
  ⟨none, [.taint "all" "found", .search "some" (.leaf ⟨.pattern, some "p", none⟩) "found"]⟩

/-- Two units that have a rule, and one that has none. -/
def threeUnits : List MatchUnit :=
  [⟨"some", none, [.bare "p" 0 5]⟩, ⟨"other", some "a.py", []⟩, ⟨"all", none, []⟩]

theorem check_resolves_two :
    twoRules.check = .ok () ∧
    Engine.ruleFor? twoRules.rules "some" = twoRules.find? "some" ∧
    (∃ f ∈ (Engine.evaluateAll {} twoRules.rules threeUnits).failures,
      f.message = Engine.unknownMessage "other") ∧
    (¬ ∃ f ∈ (Engine.evaluateAll {} twoRules.rules threeUnits).failures,
      f.message = Engine.unknownMessage "all") ∧
    ∀ f ∈ (Engine.evaluateAll {} twoRules.rules threeUnits).failures, ∀ id,
      f.message ≠ (RuleFault.mk f.ruleId (.schema (.noExpression id))).message := by
  have hcheck : twoRules.check = .ok () := rfl
  obtain ⟨hlookup, -, -, hunknown, -, hmessage⟩ :=
    (check_resolves twoRules).2 hcheck {} threeUnits
  refine ⟨hcheck, hlookup "some", (hunknown "other").2 ⟨?_, rfl⟩, fun h => ?_, hmessage⟩
  · exact ⟨⟨"other", some "a.py", []⟩, by simp [threeUnits], rfl⟩
  · have hall : twoRules.find? "all" = none := ((hunknown "all").1 h).2
    cases hall

/-- The engine would take the second of these rules, and the file finds the first. -/
example : (RuleFile.mk none [.taint "all" "one", .taint "all" "two"]).check =
    .error (.repeatedId "all") := rfl

end RuleFile

end RuleSieve
