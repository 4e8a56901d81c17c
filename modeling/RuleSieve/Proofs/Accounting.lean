/-
  The numbers of a report add up.

  Every unit is counted once, as processed or as skipped, and what a rule is credited with in the
  timings is what stands in the lists of the report.  The equations hold of the report of one unit
  whatever became of it (`Gives.balanced`), and merging keeps them (`Report.Balanced.merge`), so they
  hold of every batch (`evaluateAll_accounts`).
-/
import Mathlib.Data.List.Induction
import RuleSieve.Proofs.UnitReport

namespace RuleSieve

/-! ## Sums over timings -/

namespace Timing

/-- What a table of timings counts over all rules. -/
def countAll (count : Timing → Nat) (timings : Dict Timing) : Nat :=
  (timings.map fun entry => count entry.2).sum

variable {count : Timing → Nat}

/-- A timing that is put under its rule adds its count, whether the rule is new or not. -/
theorem countAll_alter (hzero : ∀ id, count ⟨id, 0, 0, 0⟩ = 0)
    (hadd : ∀ s t : Timing, count (s.add t) = count s + count t) (timings : Dict Timing)
    (id : String) (other : Timing) :
    countAll count
        (timings.alter id fun known => (known.getD ⟨other.ruleId, 0, 0, 0⟩).add other) =
      countAll count timings + count other := by
  have hnew : count (Timing.add ⟨other.ruleId, 0, 0, 0⟩ other) = count other := by
    rw [hadd, hzero, Nat.zero_add]
  induction timings with
  | nil => simp [countAll, Dict.alter, hnew]
  | cons head timings ih =>
    obtain ⟨key, timing⟩ := head
    rw [Dict.alter]
    split
    · simp only [countAll, List.map_cons, List.sum_cons, Option.getD_some, hadd]
      omega
    · split
      · simp only [countAll, List.map_cons, List.sum_cons, Option.getD_none, hnew]
        omega
      · simp only [countAll, List.map_cons, List.sum_cons] at ih ⊢
        rw [ih]
        omega

/-- Two tables together count what both of them count. -/
theorem countAll_mergeAll (hzero : ∀ id, count ⟨id, 0, 0, 0⟩ = 0)
    (hadd : ∀ s t : Timing, count (s.add t) = count s + count t) (timings others : Dict Timing) :
    countAll count (mergeAll timings others) = countAll count timings + countAll count others := by
  induction others generalizing timings with
  | nil => rfl
  | cons other others ih =>
    obtain ⟨id, other⟩ := other
    have hcons : mergeAll timings ((id, other) :: others) =
        mergeAll (timings.alter id fun known => (known.getD ⟨other.ruleId, 0, 0, 0⟩).add other)
          others := rfl
    rw [hcons, ih, countAll_alter hzero hadd]
    simp only [countAll, List.map_cons, List.sum_cons]
    omega

/-- Every timing stands under the id of its rule. -/
def Keyed (timings : Dict Timing) : Prop := ∀ entry ∈ timings, entry.2.ruleId = entry.1

theorem Keyed.mergeAll {timings others : Dict Timing} (h : Keyed timings) (ho : Keyed others) :
    Keyed (mergeAll timings others) := by
  induction others generalizing timings with
  | nil => exact h
  | cons other others ih =>
    obtain ⟨id, other⟩ := other
    obtain ⟨hother, hothers⟩ := List.forall_mem_cons.1 ho
    refine ih (fun entry he => ?_) hothers
    rcases Dict.mem_alter he with he | ⟨known, rfl, hknown⟩
    · exact h entry he
    · -- a timing that is added to keeps its rule
      cases known with
      | none => exact hother
      | some timing => exact h (id, timing) (hknown timing rfl)

end Timing

/-! ## Reports that add up -/

namespace Report

/-- The numbers of the report fit together, if it is that of `units` units, of which `unknown` have no
    rule. -/
structure Balanced (collect : Bool) (units unknown : Nat) (report : Report) : Prop where
  units : report.processed + report.skipped = units
  /-- Whatever was processed was an evaluation, unless there was no rule for it. -/
  evaluations : Timing.countAll (·.evaluations) report.timings + unknown = report.processed
  findings : Timing.countAll (·.findings) report.timings = report.findings.length
  keys : Timing.Keyed report.timings
  /-- What was processed left a trace or a failure. -/
  collected : collect = true → report.traces.length + report.failures.length = report.processed
  uncollected : collect = false → report.traces = []

variable {collect : Bool}

theorem balanced_empty : Balanced collect 0 0 .empty where
  units := rfl
  evaluations := rfl
  findings := rfl
  keys := fun _ h => absurd h List.not_mem_nil
  collected := fun _ => rfl
  uncollected := fun _ => rfl

theorem Balanced.merge {a b : Report} {m n k l : Nat} (ha : a.Balanced collect m k)
    (hb : b.Balanced collect n l) : (a.merge b).Balanced collect (m + n) (k + l) where
  units := by
    have hm := ha.units
    have hn := hb.units
    show a.processed + b.processed + (a.skipped + b.skipped) = m + n
    omega
  evaluations := by
    have hk := ha.evaluations
    have hl := hb.evaluations
    show Timing.countAll _ (Timing.mergeAll a.timings b.timings) + (k + l) =
      a.processed + b.processed
    rw [Timing.countAll_mergeAll (fun _ => rfl) (fun _ _ => rfl)]
    omega
  findings := by
    show Timing.countAll _ (Timing.mergeAll a.timings b.timings) = (a.findings ++ b.findings).length
    rw [Timing.countAll_mergeAll (fun _ => rfl) (fun _ _ => rfl), ha.findings, hb.findings,
      List.length_append]
  keys := ha.keys.mergeAll hb.keys
  collected := by
    intro hcollect
    have hpa := ha.collected hcollect
    have hpb := hb.collected hcollect
    show (a.traces ++ b.traces).length + (a.failures ++ b.failures).length =
      a.processed + b.processed
    rw [List.length_append, List.length_append]
    omega
  uncollected := by
    intro hcollect
    show a.traces ++ b.traces = []
    rw [ha.uncollected hcollect, hb.uncollected hcollect, List.append_nil]

end Report

/-! ## Batches -/

namespace Engine

variable {config : Config} {rules : List Rule} {unit : MatchUnit} {report : Report}

/-- A unit that was processed yields one failure and nothing else, or no failure, and a trace just if
    traces are collected.  One that was not processed yields nothing. -/
inductive Yields (collect : Bool) (report : Report) : Prop
  | nothing (h : report = { skipped := 1 })
  | failure (f : Failure) (hprocessed : report.processed = 1) (hfailures : report.failures = [f])
      (hfindings : report.findings = []) (htraces : report.traces = [])
  | findings (hprocessed : report.processed = 1) (hfailures : report.failures = [])
      (htraces : report.traces.length = if collect then 1 else 0)

theorem Gives.yields (h : Gives config rules unit report) :
    Yields config.evaluation.collectTraces report := by
  cases h with
  | unknown hunknown => exact .failure _ rfl rfl rfl rfl
  | disabled hrule hdisabled => exact .nothing rfl
  | failed hrule henabled hfault => exact .failure _ rfl rfl rfl rfl
  | found hrule henabled hfound =>
    refine .findings rfl rfl ?_
    unfold foundReport
    cases config.evaluation.collectTraces <;> rfl

/-- The report of one unit adds up, whatever became of it. -/
theorem Gives.balanced (h : Gives config rules unit report) :
    report.Balanced config.evaluation.collectTraces 1 (if Unknown rules unit then 1 else 0) := by
  cases h with
  | unknown hunknown =>
    rw [if_pos hunknown]
    exact ⟨rfl, rfl, rfl, fun _ h => absurd h List.not_mem_nil, fun _ => rfl, fun _ => rfl⟩
  | disabled hrule hdisabled =>
    rw [if_neg (not_unknown hrule)]
    exact ⟨rfl, rfl, rfl, fun _ h => absurd h List.not_mem_nil, fun _ => rfl, fun _ => rfl⟩
  | @failed rule fault hrule henabled hfault =>
    rw [if_neg (not_unknown hrule)]
    refine ⟨rfl, rfl, rfl, fun entry he => ?_, fun _ => rfl, fun _ => rfl⟩
    rw [List.mem_singleton.1 he]
  | @found rule fs trace hrule henabled hfound =>
    rw [if_neg (not_unknown hrule)]
    refine ⟨rfl, rfl, ?_, fun entry he => ?_, fun hcollect => ?_, fun hcollect => ?_⟩
    · exact (List.length_map _).symm
    · rw [List.mem_singleton.1 he]
    · rw [foundReport, if_pos hcollect]
      rfl
    · rw [foundReport, if_neg (Bool.eq_false_iff.1 hcollect)]

/-- A batch adds up, because the reports of its units do. -/
theorem evaluateAll_balanced (config : Config) (rules : List Rule) (units : List MatchUnit) :
    (evaluateAll config rules units).Balanced config.evaluation.collectTraces units.length
      (units.countP (Unknown rules ·)) := by
  induction units using List.reverseRecOn with
  | nil => exact Report.balanced_empty
  | append_singleton units unit ih =>
    rw [evaluateAll_concat, List.length_append, List.countP_append, List.countP_singleton]
    simp only [decide_eq_true_eq]
    exact ih.merge (evaluateUnit_gives config rules unit).balanced

/-- The report of a batch adds up: every unit is processed or skipped; of the processed ones those are
    evaluations of a rule for which there is a rule; the rules are credited with all findings, each
    under its id; and each unit yields one failure and nothing else, or no failure and a trace, if
    traces are collected, so that there are as many failures and traces as there are processed
    units. -/
theorem evaluateAll_accounts (config : Config) (rules : List Rule) (units : List MatchUnit) :
    (evaluateAll config rules units).Balanced config.evaluation.collectTraces units.length
      (units.countP (Unknown rules ·)) ∧
    (evaluateAll config rules units).Joins (units.map (evaluateUnit config rules)) ∧
    ∀ unit ∈ units, Yields config.evaluation.collectTraces (evaluateUnit config rules unit) :=
  ⟨evaluateAll_balanced config rules units, evaluateAll_joins config rules units,
    fun unit _ => (evaluateUnit_gives config rules unit).yields⟩

/-- Settings that leave one rule out and keep traces. -/
def tracingConfig : Config :=
  { evaluation := { collectTraces := true }, rules := { disabled := ["off"] } }

/-- Of four units one is skipped, one finds something, and two fail, one of them for want of a rule. -/
theorem evaluateAll_accounts_mixed :
    let rules : List Rule := .taint "off" "found" :: mixedRules
    let units : List MatchUnit := ⟨"off", none, [.bare "p" 0 5]⟩ :: mixedUnits
    let report := evaluateAll tracingConfig rules units
    report.processed = 3 ∧ report.skipped = 1 ∧ report.findings.length = 1 ∧
      report.Balanced true 4 1 ∧
      report.traces.length + report.failures.length = report.processed ∧
      Yields true (evaluateUnit tracingConfig rules ⟨"missing", some "c.py", []⟩) := by
  intro rules units report
  obtain ⟨hbalanced, -, hyields⟩ := evaluateAll_accounts tracingConfig rules units
  have hunknown : units.countP (Unknown rules ·) = 1 := by decide +kernel
  rw [hunknown] at hbalanced
  exact ⟨by decide +kernel, by decide +kernel, by decide +kernel, hbalanced, hbalanced.collected rfl,
    hyields _ (by decide +kernel)⟩

end Engine

end RuleSieve
