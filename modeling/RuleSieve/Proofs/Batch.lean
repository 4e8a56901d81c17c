/-
  Batches of units.

  The report of a batch is merged from those of its units, one after the other.  Merging is
  associative: lists are joined, numbers are added, and the timings of a rule are found under its id
  whatever was merged before (`Timing.find?_mergeAll`).  So a batch may be cut anywhere, and each unit
  adds what it would say alone (`evaluateAll_decomposes`); a unit that fails takes nothing away from
  the others.  The exit code only knows what is worst.
-/
import Mathlib.Algebra.GroupWithZero.Nat
import Mathlib.Data.List.Perm.Basic
import RuleSieve.Engine
import RuleSieve.Proofs.Table

namespace RuleSieve

/-! ## Timings -/

namespace Timing

instance : Std.Associative add := ⟨fun a b c => by simp only [add, Nat.add_assoc]⟩

/-- Merging keeps the order of the rules. -/
theorem sorted_mergeAll {timings : Dict Timing} (h : timings.Sorted) (others : Dict Timing) :
    Dict.Sorted (mergeAll timings others) := by
  induction others generalizing timings with
  | nil => exact h
  | cons other others ih => exact ih (h.alter _ _)

/-- A rule has the timings from both tables added up, or the one that it has. -/
theorem find?_mergeAll {timings others : Dict Timing} (h : timings.Sorted) (ho : others.Sorted)
    (id : String) : Dict.find? id (mergeAll timings others) =
      Option.merge add (Dict.find? id timings) (Dict.find? id others) := by
  induction others generalizing timings with
  | nil => cases hid : Dict.find? id timings <;> simp [mergeAll, Dict.find?, hid]
  | cons other others ih =>
    obtain ⟨key, other⟩ := other
    obtain ⟨hhead, htail⟩ := List.pairwise_cons.1 ho
    have hcons : mergeAll timings ((key, other) :: others) =
        mergeAll (timings.alter key fun known => (known.getD ⟨other.ruleId, 0, 0, 0⟩).add other)
          others := rfl
    rw [hcons, ih (h.alter _ _) htail, Dict.find?_alter h, Dict.find?]
    by_cases hid : id = key
    · -- the ids increase, so the rule has no other timing further down
      subst hid
      rw [if_pos rfl, if_pos rfl, Dict.find?_eq_none_of_lt hhead]
      cases Dict.find? id timings <;> simp [add]
    · rw [if_neg hid, if_neg hid]

/-- Tables may be merged in any grouping. -/
theorem mergeAll_assoc {a b c : Dict Timing} (ha : a.Sorted) (hb : b.Sorted) (hc : c.Sorted) :
    mergeAll (mergeAll a b) c = mergeAll a (mergeAll b c) := by
  have hab := sorted_mergeAll ha b
  have hbc := sorted_mergeAll hb c
  refine Dict.Sorted.ext (sorted_mergeAll hab c) (sorted_mergeAll ha _) fun id => ?_
  rw [find?_mergeAll hab hc, find?_mergeAll ha hb, find?_mergeAll ha hbc, find?_mergeAll hb hc]
  exact Std.Associative.assoc _ _ _

end Timing

/-! ## Merging -/

namespace Report

/-- The timings stand in the order of their rules. -/
def Ordered (report : Report) : Prop := Dict.Sorted report.timings

theorem ordered_empty : empty.Ordered := List.Pairwise.nil

theorem Ordered.merge {a b : Report} (ha : a.Ordered) : (a.merge b).Ordered :=
  Timing.sorted_mergeAll ha b.timings

/-- Merging reports one after the other keeps the order of the rules. -/
theorem Ordered.foldl_merge {start : Report} (h : start.Ordered) (parts : List Report) :
    (parts.foldl Report.merge start).Ordered := by
  induction parts generalizing start with
  | nil => exact h
  | cons part parts ih => exact ih h.merge

/-- The empty report adds nothing. -/
theorem merge_empty (report : Report) : report.merge empty = report := by
  simp [merge, empty, Timing.mergeAll]

/-- Reports may be merged in any grouping. -/
theorem merge_assoc {a b c : Report} (ha : a.Ordered) (hb : b.Ordered) (hc : c.Ordered) :
    (a.merge b).merge c = a.merge (b.merge c) := by
  simp only [merge, List.append_assoc, Nat.add_assoc, Timing.mergeAll_assoc ha hb hc]

/-- Reports can be merged by themselves before they are merged into another one. -/
theorem foldl_merge {start : Report} {parts : List Report} (h : start.Ordered)
    (hparts : ∀ part ∈ parts, part.Ordered) :
    parts.foldl merge start = start.merge (parts.foldl merge empty) := by
  induction parts generalizing start with
  | nil => exact (merge_empty start).symm
  | cons part parts ih =>
    obtain ⟨hpart, hrest⟩ := List.forall_mem_cons.1 hparts
    have htail : (parts.foldl merge empty).Ordered := ordered_empty.foldl_merge parts
    calc parts.foldl merge (start.merge part)
      _ = (start.merge part).merge (parts.foldl merge empty) := ih h.merge hrest
      _ = ((start.merge empty).merge part).merge (parts.foldl merge empty) := by rw [merge_empty]
      _ = (start.merge (empty.merge part)).merge (parts.foldl merge empty) := by
          rw [merge_assoc h ordered_empty hpart]
      _ = start.merge ((empty.merge part).merge (parts.foldl merge empty)) :=
          merge_assoc h ordered_empty.merge htail
      _ = start.merge (parts.foldl merge (empty.merge part)) := by
          rw [ih ordered_empty.merge hrest]

/-- What merging adds up is added up over many reports. -/
theorem foldl_merge_hom {α : Type} (op : α → α → α) (e : α) [Std.Associative op]
    [Std.LawfulIdentity op e] {f : Report → α}
    (hf : ∀ a b : Report, a.Ordered → b.Ordered → f (a.merge b) = op (f a) (f b))
    {start : Report} {parts : List Report} (h : start.Ordered)
    (hparts : ∀ part ∈ parts, part.Ordered) :
    f (parts.foldl merge start) = op (f start) ((parts.map f).foldr op e) := by
  induction parts generalizing start with
  | nil => exact (Std.LawfulRightIdentity.right_id (f start)).symm
  | cons part parts ih =>
    obtain ⟨hpart, hrest⟩ := List.forall_mem_cons.1 hparts
    rw [List.foldl_cons, ih h.merge hrest, hf start part h hpart, List.map_cons, List.foldr_cons]
    exact Std.Associative.assoc _ _ _

/-! ## Exit codes -/

/-- The exit code by what happened: a predicate that was not allowed to run, any failure, a finding. -/
def codeOf (forbidden failed found : Bool) : Nat :=
  if forbidden then 6 else if failed then 2 else if found then 1 else 0

/-- What happened in either of two reports gives the larger of their codes. -/
theorem codeOf_or (a b c a' b' c' : Bool) :
    codeOf (a || a') (b || b') (c || c') = max (codeOf a b c) (codeOf a' b' c') := by
  revert a b c a' b' c'
  decide

/-- Each code stands for one of four cases, as a predicate that was not allowed to run is a
    failure. -/
theorem codeOf_eq_iff {a b : Bool} (h : a = true → b = true) (c : Bool) :
    (codeOf a b c = 6 ↔ a = true) ∧ (codeOf a b c = 2 ↔ b = true ∧ a = false) ∧
      (codeOf a b c = 1 ↔ b = false ∧ c = true) ∧ (codeOf a b c = 0 ↔ b = false ∧ c = false) := by
  revert a b c
  decide

/-- The exit code of a report, by what happened in it. -/
theorem exitCode_eq_codeOf (report : Report) :
    report.exitCode = codeOf (report.failures.any fun f => f.kind == .executionNotAllowed)
      (!report.failures.isEmpty) (!report.findings.isEmpty) := rfl

/-- Two reports together are as bad as the worse one of them. -/
theorem exitCode_merge (a b : Report) : (a.merge b).exitCode = max a.exitCode b.exitCode := by
  have hempty : ∀ {α : Type} (xs ys : List α),
      (!(xs ++ ys).isEmpty) = (!xs.isEmpty || !ys.isEmpty) := by
    intro α xs ys
    cases xs <;> rfl
  rw [exitCode_eq_codeOf, exitCode_eq_codeOf a, exitCode_eq_codeOf b, ← codeOf_or, ← hempty,
    ← hempty, ← List.any_append]
  rfl

/-- What each exit code says. -/
theorem exitCode_eq_iff (report : Report) :
    (report.exitCode = 6 ↔ ∃ f ∈ report.failures, f.kind = .executionNotAllowed) ∧
    (report.exitCode = 2 ↔
      report.failures ≠ [] ∧ ∀ f ∈ report.failures, f.kind ≠ .executionNotAllowed) ∧
    (report.exitCode = 1 ↔ report.failures = [] ∧ report.findings ≠ []) ∧
    (report.exitCode = 0 ↔ report.failures = [] ∧ report.findings = []) := by
  -- a predicate that was not allowed to run is a failure
  have hfailed : (report.failures.any fun f => f.kind == .executionNotAllowed) = true →
      (!report.failures.isEmpty) = true := by
    cases report.failures with
    | nil => exact id
    | cons _ _ => exact fun _ => rfl
  rw [exitCode_eq_codeOf]
  have hcode := codeOf_eq_iff hfailed (!report.findings.isEmpty)
  simpa using hcode

/-! ## What many reports say together -/

/-- The number that the timings of a rule hold. -/
def counted (report : Report) (count : Timing → Nat) (id : String) : Nat :=
  (report.timings.find? id).elim 0 count

/-- What a merged report counts of a rule is what both reports count of it. -/
theorem counted_merge {count : Timing → Nat}
    (hcount : ∀ s t : Timing, count (s.add t) = count s + count t) (id : String) {a b : Report}
    (ha : a.Ordered) (hb : b.Ordered) :
    (a.merge b).counted count id = a.counted count id + b.counted count id := by
  show (Dict.find? id (Timing.mergeAll a.timings b.timings)).elim 0 count = _
  rw [Timing.find?_mergeAll ha hb, counted, counted]
  cases a.timings.find? id <;> cases b.timings.find? id <;> simp [hcount]

/-- The report says what the parts say, one after the other. -/
structure Joins (report : Report) (parts : List Report) : Prop where
  findings : report.findings = parts.flatMap (·.findings)
  failures : report.failures = parts.flatMap (·.failures)
  traces : report.traces = parts.flatMap (·.traces)
  processed : report.processed = (parts.map (·.processed)).sum
  skipped : report.skipped = (parts.map (·.skipped)).sum
  /-- Every rule has the evaluations that the parts have of it, and the findings. -/
  evaluations : ∀ id, report.counted (·.evaluations) id = (parts.map (·.counted (·.evaluations) id)).sum
  found : ∀ id, report.counted (·.findings) id = (parts.map (·.counted (·.findings) id)).sum
  exitCode : report.exitCode = (parts.map (·.exitCode)).foldr max 0

/-- Merged reports say what they say alone. -/
theorem joins_foldl_merge {parts : List Report} (hparts : ∀ part ∈ parts, part.Ordered) :
    (parts.foldl merge empty).Joins parts := by
  -- lists are joined
  have hlist : ∀ {α : Type} {f : Report → List α}, (∀ a b : Report, f (a.merge b) = f a ++ f b) →
      f empty = [] → f (parts.foldl merge empty) = parts.flatMap f := by
    intro α f hf hempty
    rw [foldl_merge_hom (· ++ ·) [] (fun a b _ _ => hf a b) ordered_empty hparts,
      hempty, List.nil_append, List.flatMap_def, List.foldr_map]
    simp
  -- numbers are added
  have hsum : ∀ {f : Report → Nat},
      (∀ a b : Report, a.Ordered → b.Ordered → f (a.merge b) = f a + f b) → f empty = 0 →
      f (parts.foldl merge empty) = (parts.map f).sum := by
    intro f hf hempty
    rw [foldl_merge_hom (· + ·) 0 hf ordered_empty hparts, hempty, Nat.zero_add,
      List.sum_eq_foldr]
  exact {
    findings := hlist (fun _ _ => rfl) rfl
    failures := hlist (fun _ _ => rfl) rfl
    traces := hlist (fun _ _ => rfl) rfl
    processed := hsum (fun _ _ _ _ => rfl) rfl
    skipped := hsum (fun _ _ _ _ => rfl) rfl
    evaluations := fun id => hsum (f := fun part => part.counted (·.evaluations) id)
      (fun _ _ => counted_merge (fun _ _ => rfl) id) rfl
    found := fun id => hsum (f := fun part => part.counted (·.findings) id)
      (fun _ _ => counted_merge (fun _ _ => rfl) id) rfl
    exitCode := by
      rw [foldl_merge_hom max 0 (fun a b _ _ => exitCode_merge a b) ordered_empty hparts]
      exact Nat.zero_max _ }

end Report

/-! ## Batches -/

namespace Engine

variable (config : Config) (rules : List Rule)

theorem evaluateRule_ordered (rule : Rule) (unit : MatchUnit) :
    (evaluateRule config rule unit).Ordered := by
  unfold evaluateRule
  split
  · exact List.pairwise_singleton _ _
  · exact List.pairwise_singleton _ _

/-- The report of a unit knows one rule at most, so its table is in order. -/
theorem evaluateUnit_ordered (unit : MatchUnit) : (evaluateUnit config rules unit).Ordered := by
  unfold evaluateUnit
  split
  · exact List.Pairwise.nil
  · split
    · exact evaluateRule_ordered config _ unit
    · exact List.Pairwise.nil

theorem forall_map_evaluateUnit_ordered (units : List MatchUnit) :
    ∀ part ∈ units.map (evaluateUnit config rules), part.Ordered := by
  rw [List.forall_mem_map]
  exact fun unit _ => evaluateUnit_ordered config rules unit

/-- A batch can be cut anywhere. -/
theorem evaluateAll_append (us vs : List MatchUnit) :
    evaluateAll config rules (us ++ vs) =
      (evaluateAll config rules us).merge (evaluateAll config rules vs) := by
  unfold evaluateAll
  rw [List.map_append, List.foldl_append]
  exact Report.foldl_merge (Report.ordered_empty.foldl_merge _)
    (forall_map_evaluateUnit_ordered config rules vs)

/-- The report of a batch says what the reports of the units say. -/
theorem evaluateAll_joins (units : List MatchUnit) :
    (evaluateAll config rules units).Joins (units.map (evaluateUnit config rules)) :=
  Report.joins_foldl_merge (forall_map_evaluateUnit_ordered config rules units)

/-- The exit code of a batch does not depend on the order of the units. -/
theorem exitCode_evaluateAll_perm {us vs : List MatchUnit} (h : us.Perm vs) :
    (evaluateAll config rules us).exitCode = (evaluateAll config rules vs).exitCode := by
  rw [(evaluateAll_joins config rules us).exitCode, (evaluateAll_joins config rules vs).exitCode]
  exact ((h.map _).map _).foldr_op_eq

/-- A batch that is cut anywhere gives the reports of its pieces merged, and what it says is what each
    unit says alone, in the order of the units.  The exit code is the worst one of the pieces, and so
    the order of the units makes no difference to it. -/
theorem evaluateAll_decomposes :
    (∀ us vs : List MatchUnit, evaluateAll config rules (us ++ vs) =
      (evaluateAll config rules us).merge (evaluateAll config rules vs)) ∧
    (∀ units : List MatchUnit,
      (evaluateAll config rules units).Joins (units.map (evaluateUnit config rules))) ∧
    (∀ us vs : List MatchUnit, (evaluateAll config rules (us ++ vs)).exitCode =
      max (evaluateAll config rules us).exitCode (evaluateAll config rules vs).exitCode) ∧
    (∀ report : Report,
      (report.exitCode = 6 ↔ ∃ f ∈ report.failures, f.kind = .executionNotAllowed) ∧
      (report.exitCode = 2 ↔
        report.failures ≠ [] ∧ ∀ f ∈ report.failures, f.kind ≠ .executionNotAllowed) ∧
      (report.exitCode = 1 ↔ report.failures = [] ∧ report.findings ≠ []) ∧
      (report.exitCode = 0 ↔ report.failures = [] ∧ report.findings = [])) ∧
    (∀ us vs : List MatchUnit, us.Perm vs →
      (evaluateAll config rules us).exitCode = (evaluateAll config rules vs).exitCode) := by
  refine ⟨evaluateAll_append config rules, evaluateAll_joins config rules, ?_,
    Report.exitCode_eq_iff, ?_⟩
  · intro us vs
    rw [evaluateAll_append, Report.exitCode_merge]
  · intro us vs h
    exact exitCode_evaluateAll_perm config rules h

/-- A rule that keeps everything, and one with a predicate. -/
def mixedRules : List Rule :=
  [.taint "all" "found", .search "where" (.leaf ⟨.patternWhere, none, some (.text "1")⟩) "found"]

/-- A unit whose rule must not run, one with a finding, and one whose rule is not known. -/
def mixedUnits : List MatchUnit :=
  [⟨"where", some "a.py", [.bare "p" 0 5]⟩, ⟨"all", some "b.py", [.bare "p" 0 5]⟩,
    ⟨"missing", some "c.py", []⟩]

/-- The units that fail leave the finding of the other one alone, and the exit code is that of the worst
    one, in whichever order they come. -/
theorem evaluateAll_decomposes_mixed :
    (evaluateAll {} mixedRules mixedUnits).findings.map (·.path) = [some "b.py"] ∧
    (evaluateAll {} mixedRules mixedUnits).failures.map (·.path) = [some "a.py", some "c.py"] ∧
    (evaluateAll {} mixedRules mixedUnits).exitCode = 6 ∧
    (evaluateAll {} mixedRules mixedUnits.reverse).exitCode = 6 := by
  have hcode : (evaluateAll {} mixedRules mixedUnits).exitCode = 6 := by decide +kernel
  refine ⟨by decide +kernel, by decide +kernel, hcode, ?_⟩
  exact ((evaluateAll_decomposes {} mixedRules).2.2.2.2 _ _ (List.reverse_perm mixedUnits)).trans
    hcode

end Engine

end RuleSieve
