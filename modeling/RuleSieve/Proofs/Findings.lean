/-
  What a rule reports.

  A rule reports the matches that survive, one finding for each in the order of the matches, and a
  finding says what its match says (`evaluate_reports`).  Survival is a matter of intervals: matches
  that share an interval survive together, whatever their patterns are.
-/
import RuleSieve.Proofs.Outcome
import RuleSieve.Proofs.SpanSet
import RuleSieve.Verdict

namespace RuleSieve.Rule

open Outcome (fault?)

/-! ## One finding -/

/-- The finding says what the rule and the match say, where `ms` are all matches of the file.  It has
    a fix just if the rule has a template for one. -/
structure Describes (rule : Rule) (ms : List Match) (m : Match) (f : Finding) : Prop where
  ruleId : f.ruleId = rule.id
  path : f.path = none
  span : f.span = m.span
  message : f.message = Template.fillMessage rule.message m ms
  metadata : f.metadata = rule.metadata
  severity : f.severity = rule.severity
  noFix : rule.fix = none → f.fix = none
  fix : ∀ template, rule.fix = some template →
    ∃ text, Template.fillFix template m = .ok text ∧ f.fix = some text
  fixRegex : f.fixRegex = rule.fixRegex
  bindings : f.bindings = m.bindings

/-- The fix of a match, if the rule has a template for one. -/
def fixOf (rule : Rule) (m : Match) : Except Fault (Option String) :=
  match rule.fix with
  | none => .ok none
  | some template => (Template.fillFix template m).map some

variable {rule : Rule} {ms : List Match} {m : Match} {allowExec : Bool}

/-- The finding of a match, apart from its fix. -/
theorem finding_eq (rule : Rule) (ms : List Match) (m : Match) :
    rule.finding ms m = (rule.fixOf m).map fun fix =>
      { ruleId := rule.id, path := none, span := m.span
        message := Template.fillMessage rule.message m ms
        metadata := rule.metadata, severity := rule.severity, fix := fix
        fixRegex := rule.fixRegex, bindings := m.bindings } := by
  unfold finding fixOf
  cases rule.fix with
  | none => rfl
  | some template =>
    show (some <$> Template.fillFix template m) >>= _ =
      ((Template.fillFix template m).map some).map _
    cases Template.fillFix template m <;> rfl

/-- There is a fix just if the rule has a template and the template can be filled. -/
theorem fixOf_eq_ok_iff {fix : Option String} :
    rule.fixOf m = .ok fix ↔ (rule.fix = none → fix = none) ∧
      ∀ template, rule.fix = some template →
        ∃ text, Template.fillFix template m = .ok text ∧ fix = some text := by
  unfold fixOf
  cases rule.fix with
  | none => simp [eq_comm]
  | some template =>
    simp only [Outcome.map_eq_ok_iff, Option.some.injEq, reduceCtorEq, false_implies, true_and,
      forall_eq', eq_comm (b := fix)]

/-- The fault of a fix is that of the template. -/
theorem fixOf_eq_error_iff {fault : Fault} :
    rule.fixOf m = .error fault ↔
      ∃ template, rule.fix = some template ∧ Template.fillFix template m = .error fault := by
  unfold fixOf
  cases rule.fix with
  | none => simp
  | some template => cases h : Template.fillFix template m <;> simp [Except.map, h]

/-- Nothing but the finding that describes a match is made of it. -/
theorem finding_eq_ok_iff {f : Finding} : rule.finding ms m = .ok f ↔ rule.Describes ms m f := by
  rw [finding_eq, Outcome.map_eq_ok_iff]
  constructor
  · rintro ⟨fix, hfix, rfl⟩
    obtain ⟨hnone, hsome⟩ := fixOf_eq_ok_iff.1 hfix
    exact ⟨rfl, rfl, rfl, rfl, rfl, rfl, hnone, hsome, rfl, rfl⟩
  · intro h
    -- the description fixes every field
    refine ⟨f.fix, fixOf_eq_ok_iff.2 ⟨h.noFix, h.fix⟩, ?_⟩
    rw [← h.ruleId, ← h.path, ← h.span, ← h.message, ← h.metadata, ← h.severity, ← h.fixRegex,
      ← h.bindings]

theorem fault?_finding : fault? (rule.finding ms m) = fault? (rule.fixOf m) := by
  rw [finding_eq, Outcome.fault?_map]

/-! ## Survival -/

/-- The matches that survive, in input order: all of them for a taint rule, and otherwise those with
    an interval that the expression keeps. -/
inductive Survive (rule : Rule) (ms : List Match) (allowExec : Bool) : List Match → Prop
  | taint (hmode : rule.mode = .taint) : Survive rule ms allowExec ms
  | search {e : Expression} {kept : SpanSet} {trace : Trace} (hmode : rule.mode = .search)
      (he : rule.expression = some e)
      (hkept : (e.evaluate ⟨.ofMatches ms, allowExec⟩).result = .ok (kept, trace)) :
      Survive rule ms allowExec (ms.filter fun m => m.span.interval ∈ kept.intervals)

/-- The rule fails with the fault: it has no expression to search with, its expression fails, or the
    fix of a match that survives does, and that of no earlier one. -/
inductive Fails (rule : Rule) (ms : List Match) (allowExec : Bool) : Fault → Prop
  | noExpression (hmode : rule.mode = .search) (he : rule.expression = none) :
      Fails rule ms allowExec (.schema (.noExpression rule.id))
  | expression {e : Expression} {fault : Fault} (hmode : rule.mode = .search)
      (he : rule.expression = some e)
      (hfault : (e.evaluate ⟨.ofMatches ms, allowExec⟩).result = .error fault) :
      Fails rule ms allowExec fault
  | fix {before after : List Match} {m : Match} {template : String} {fault : Fault}
      (hsurvive : Survive rule ms allowExec (before ++ m :: after))
      (htemplate : rule.fix = some template)
      (hbefore : ∀ k ∈ before, ∃ text, Template.fillFix template k = .ok text)
      (hfault : Template.fillFix template m = .error fault) : Fails rule ms allowExec fault

/-- A rule that looks for taint keeps every match. -/
theorem keep_taint (hmode : rule.mode = .taint) :
    (rule.keep ms allowExec).result =
      .ok (.ofList (ms.map (·.span)), ⟨(Registry.ofMatches ms).spansByPattern, []⟩) := by
  simp only [keep, hmode, Noted.result_pure]

/-- A rule that searches keeps what its expression does; without one it fails. -/
theorem keep_search (hmode : rule.mode = .search) :
    (rule.keep ms allowExec).result = rule.neededExpression >>= fun e =>
      (e.evaluate ⟨.ofMatches ms, allowExec⟩).result := by
  simp only [keep, hmode, Noted.result_bind, Noted.result_ofExcept]

/-- The matches that survive are those at a kept interval. -/
theorem filter_contains (ms : List Match) (kept : SpanSet) :
    ms.filter (fun m => kept.contains m.span) =
      ms.filter fun m => m.span.interval ∈ kept.intervals :=
  List.filter_congr fun m _ => by rw [Bool.eq_iff_iff, SpanSet.contains_iff, decide_eq_true_eq]

/-- The set of the spans of all matches loses none of them. -/
theorem filter_ofList_spans (ms : List Match) :
    ms.filter (fun m => (SpanSet.ofList (ms.map (·.span))).contains m.span) = ms := by
  refine List.filter_eq_self.2 fun m hm => ?_
  rw [SpanSet.contains_iff, SpanSet.mem_intervals_ofList]
  exact ⟨m.span, List.mem_map_of_mem hm, rfl⟩

/-- The matches with kept spans are those that survive. -/
theorem survive_iff {survivors : List Match} :
    rule.Survive ms allowExec survivors ↔ ∃ kept trace,
      (rule.keep ms allowExec).result = .ok (kept, trace) ∧
        ms.filter (fun m => kept.contains m.span) = survivors := by
  constructor
  · intro h
    cases h with
    | taint hmode => exact ⟨_, _, keep_taint hmode, filter_ofList_spans ms⟩
    | @search e kept trace hmode he hkept =>
      refine ⟨kept, trace, ?_, filter_contains ms kept⟩
      rw [keep_search hmode, neededExpression, he]
      exact hkept
  · rintro ⟨kept, trace, hkeep, rfl⟩
    cases hmode : rule.mode with
    | taint =>
      rw [keep_taint hmode] at hkeep
      obtain ⟨rfl, -⟩ := Prod.mk.inj (Except.ok.inj hkeep)
      rw [filter_ofList_spans]
      exact .taint hmode
    | search =>
      rw [keep_search hmode] at hkeep
      obtain ⟨e, he, hkept⟩ := Outcome.bind_eq_ok_iff.1 hkeep
      rw [filter_contains]
      exact .search hmode (Outcome.elim_eq_ok_iff.1 he) hkept

/-- Only a rule that searches can fail before its findings are made. -/
theorem keep_eq_error_iff {fault : Fault} :
    (rule.keep ms allowExec).result = .error fault ↔ rule.mode = .search ∧
      ((rule.expression = none ∧ fault = .schema (.noExpression rule.id)) ∨
        ∃ e, rule.expression = some e ∧
          (e.evaluate ⟨.ofMatches ms, allowExec⟩).result = .error fault) := by
  cases hmode : rule.mode with
  | taint => simp [keep_taint hmode]
  | search =>
    rw [keep_search hmode, Outcome.bind_eq_error_iff, neededExpression]
    cases rule.expression with
    | none => simp [eq_comm]
    | some e => simp

/-! ## All findings -/

/-- The findings describe the matches that survive, one by one and in their order. -/
theorem findings_eq_ok_iff {kept : SpanSet} {fs : List Finding} :
    rule.findings kept ms = .ok fs ↔
      List.Forall₂ (rule.Describes ms) (ms.filter fun m => kept.contains m.span) fs := by
  rw [findings, Outcome.mapM_eq_ok_iff]
  simp only [finding_eq_ok_iff]

/-- The findings have the fault of the first match that has no fix though it needs one. -/
theorem fault?_findings (kept : SpanSet) :
    fault? (rule.findings kept ms) =
      (ms.filter fun m => kept.contains m.span).findSome? fun m => fault? (rule.fixOf m) := by
  rw [findings, Outcome.fault?_mapM]
  simp only [fault?_finding]

/-- A rule succeeds if something is kept, whatever it is, and all findings are made. -/
theorem evaluate_eq_ok_iff {fs : List Finding} {trace : Trace} :
    rule.evaluate ms allowExec = .ok (fs, trace) ↔ ∃ kept,
      (rule.keep ms allowExec).result = .ok (kept, trace) ∧ rule.findings kept ms = .ok fs := by
  simp only [evaluate, judge, Outcome.mapError_eq_ok_iff, Noted.result_bind_eq_ok_iff,
    Noted.result_ofExcept, Noted.result_pure, Except.ok.injEq, Prod.mk.injEq, Prod.exists]
  constructor
  · rintro ⟨kept, trace, hkeep, fs, hfs, rfl, rfl⟩
    exact ⟨kept, hkeep, hfs⟩
  · rintro ⟨kept, hkeep, hfs⟩
    exact ⟨kept, trace, hkeep, fs, hfs, rfl, rfl⟩

/-- A rule fails if nothing can be kept, or if a finding cannot be made. -/
theorem evaluate_eq_error_iff {f : RuleFault} :
    rule.evaluate ms allowExec = .error f ↔ f.ruleId = rule.id ∧
      ((rule.keep ms allowExec).result = .error f.fault ∨ ∃ kept trace,
        (rule.keep ms allowExec).result = .ok (kept, trace) ∧
          rule.findings kept ms = .error f.fault) := by
  have hjudge : ∀ fault, (rule.judge ms allowExec).result = .error fault ↔
      (rule.keep ms allowExec).result = .error fault ∨ ∃ kept trace,
        (rule.keep ms allowExec).result = .ok (kept, trace) ∧
          rule.findings kept ms = .error fault := by
    intro fault
    simp [judge, Noted.result_bind, Outcome.bind_eq_error_iff]
  rw [evaluate, Outcome.mapError_eq_error_iff, ← hjudge]
  constructor
  · rintro ⟨fault, hfault, rfl⟩
    exact ⟨rfl, hfault⟩
  · rintro ⟨hid, hfault⟩
    exact ⟨f.fault, hfault, by rw [← hid]⟩

/-- What a rule fails with, after it was found which spans are kept. -/
theorem fails_iff {fault : Fault} :
    rule.Fails ms allowExec fault ↔ (rule.keep ms allowExec).result = .error fault ∨
      ∃ kept trace, (rule.keep ms allowExec).result = .ok (kept, trace) ∧
        rule.findings kept ms = .error fault := by
  constructor
  · intro h
    cases h with
    | noExpression hmode he => exact .inl (keep_eq_error_iff.2 ⟨hmode, .inl ⟨he, rfl⟩⟩)
    | @expression e fault hmode he hfault =>
      exact .inl (keep_eq_error_iff.2 ⟨hmode, .inr ⟨e, he, hfault⟩⟩)
    | @fix before after m template fault hsurvive htemplate hbefore hfault =>
      obtain ⟨kept, trace, hkeep, hfilter⟩ := survive_iff.1 hsurvive
      refine .inr ⟨kept, trace, hkeep, ?_⟩
      -- the matches before the one at fault have their fixes
      rw [← Outcome.fault?_eq_some_iff, fault?_findings, hfilter,
        Outcome.findSome?_fault?_eq_some_iff]
      refine ⟨before, m, after, rfl, fun k hk => ?_, fixOf_eq_error_iff.2 ⟨_, htemplate, hfault⟩⟩
      obtain ⟨text, htext⟩ := hbefore k hk
      exact ⟨some text, fixOf_eq_ok_iff.2 (by simp [htemplate, htext])⟩
  · rintro (hkeep | ⟨kept, trace, hkeep, hfindings⟩)
    · obtain ⟨hmode, ⟨he, rfl⟩ | ⟨e, he, hfault⟩⟩ := keep_eq_error_iff.1 hkeep
      · exact .noExpression hmode he
      · exact .expression hmode he hfault
    · rw [← Outcome.fault?_eq_some_iff, fault?_findings,
        Outcome.findSome?_fault?_eq_some_iff] at hfindings
      obtain ⟨before, m, after, hfilter, hbefore, hfault⟩ := hfindings
      obtain ⟨template, htemplate, hfault⟩ := fixOf_eq_error_iff.1 hfault
      refine .fix (survive_iff.2 ⟨kept, trace, hkeep, hfilter⟩) htemplate (fun k hk => ?_) hfault
      obtain ⟨fix, hfix⟩ := hbefore k hk
      obtain ⟨text, htext, -⟩ := (fixOf_eq_ok_iff.1 hfix).2 template htemplate
      exact ⟨text, htext⟩

/-- It takes one match that survives and has no fix though it needs one. -/
theorem exists_fails_iff :
    (∃ fault, rule.Fails ms allowExec fault) ↔
      (rule.mode = .search ∧ rule.expression = none) ∨
      (∃ e fault, rule.mode = .search ∧ rule.expression = some e ∧
        (e.evaluate ⟨.ofMatches ms, allowExec⟩).result = .error fault) ∨
      ∃ survivors m template fault, rule.Survive ms allowExec survivors ∧ m ∈ survivors ∧
        rule.fix = some template ∧ Template.fillFix template m = .error fault := by
  constructor
  · rintro ⟨fault, h⟩
    cases h with
    | noExpression hmode he => exact .inl ⟨hmode, he⟩
    | expression hmode he hfault => exact .inr (.inl ⟨_, fault, hmode, he, hfault⟩)
    | fix hsurvive htemplate hbefore hfault =>
      exact .inr (.inr ⟨_, _, _, fault, hsurvive, by simp, htemplate, hfault⟩)
  · rintro (⟨hmode, he⟩ | ⟨e, fault, hmode, he, hfault⟩ |
      ⟨survivors, m, template, fault, hsurvive, hm, htemplate, hfault⟩)
    · exact ⟨_, .noExpression hmode he⟩
    · exact ⟨fault, .expression hmode he hfault⟩
    · -- the first such match may be another one
      obtain ⟨kept, trace, hkeep, rfl⟩ := survive_iff.1 hsurvive
      have hfault' : fault? (rule.findings kept ms) ≠ none := by
        rw [fault?_findings, Outcome.findSome?_fault?_ne_none_iff]
        exact ⟨m, hm, fault, fixOf_eq_error_iff.2 ⟨template, htemplate, hfault⟩⟩
      obtain ⟨first, hfirst⟩ := Outcome.fault?_ne_none_iff.1 hfault'
      exact ⟨first, fails_iff.2 (.inr ⟨kept, trace, hkeep, hfirst⟩)⟩

/-- The findings stand for the matches that survive, one for each in input order, and say what these
    say.  There is a fault just if a rule that searches has no expression, or its expression fails, or
    the fix of a match that survives does, and then it is the first one, and bears the rule's id. -/
theorem evaluate_reports (rule : Rule) (ms : List Match) (allowExec : Bool) :
    (∀ fs trace, rule.evaluate ms allowExec = .ok (fs, trace) →
      ∃ survivors, rule.Survive ms allowExec survivors ∧
        List.Forall₂ (rule.Describes ms) survivors fs) ∧
    ((∃ f, rule.evaluate ms allowExec = .error f) ↔
      (rule.mode = .search ∧ rule.expression = none) ∨
      (∃ e fault, rule.mode = .search ∧ rule.expression = some e ∧
        (e.evaluate ⟨.ofMatches ms, allowExec⟩).result = .error fault) ∨
      ∃ survivors m template fault, rule.Survive ms allowExec survivors ∧ m ∈ survivors ∧
        rule.fix = some template ∧ Template.fillFix template m = .error fault) ∧
    ∀ f, rule.evaluate ms allowExec = .error f ↔
      f.ruleId = rule.id ∧ rule.Fails ms allowExec f.fault := by
  have herror : ∀ f, rule.evaluate ms allowExec = .error f ↔
      f.ruleId = rule.id ∧ rule.Fails ms allowExec f.fault := by
    intro f
    rw [evaluate_eq_error_iff, fails_iff]
  refine ⟨?_, ?_, herror⟩
  · intro fs trace h
    obtain ⟨kept, hkeep, hfs⟩ := evaluate_eq_ok_iff.1 h
    exact ⟨_, survive_iff.2 ⟨kept, trace, hkeep, rfl⟩, findings_eq_ok_iff.1 hfs⟩
  · rw [← exists_fails_iff]
    constructor
    · rintro ⟨f, hf⟩
      exact ⟨f.fault, ((herror f).1 hf).2⟩
    · rintro ⟨fault, h⟩
      exact ⟨⟨rule.id, fault⟩, (herror _).2 ⟨rfl, h⟩⟩

/-- Matches of two patterns that share an interval, with another one between them. -/
def sharedMatches : List Match :=
  [(Match.bare "q" 0 5).bind "$X" "a", .bare "p" 8 9, (Match.bare "p" 0 5).bind "$X" "b"]

/-- A rule for the intervals of one of the patterns. -/
def sharedRule : Rule :=
  { Rule.search "r" (.leaf ⟨.pattern, some "q", none⟩) "found $X" with fix := some "$X+" }

theorem evaluate_reports_shared :
    ∃ fs trace, sharedRule.evaluate sharedMatches false = .ok (fs, trace) ∧
      fs.map (·.fix) = [some "a+", some "b+"] ∧
      ∃ survivors, sharedRule.Survive sharedMatches false survivors ∧
        List.Forall₂ (sharedRule.Describes sharedMatches) survivors fs := by
  have hfixes : ((sharedRule.evaluate sharedMatches false).toOption.map fun outcome =>
      outcome.1.map Finding.fix) = some [some "a+", some "b+"] := by decide +kernel
  cases h : sharedRule.evaluate sharedMatches false with
  | error f =>
    rw [h] at hfixes
    cases hfixes
  | ok outcome =>
    obtain ⟨fs, trace⟩ := outcome
    rw [h] at hfixes
    exact ⟨fs, trace, rfl, Option.some.inj hfixes,
      (evaluate_reports sharedRule sharedMatches false).1 fs trace h⟩

end RuleSieve.Rule
