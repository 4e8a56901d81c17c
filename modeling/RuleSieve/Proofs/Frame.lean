/-
  Matches that an expression does not ask for.

  A leaf that looks at no bindings asks for the interval of a candidate and for the matches of its own
  pattern.  Matches of patterns that an expression does not mention may bring candidates of their own,
  and they may change which match is the last one of an interval, but of the intervals that were there
  before the same ones are kept (`evaluate_insertsForeign`).
-/
import RuleSieve.Proofs.Order

namespace RuleSieve

open Outcome (fault?)

/-! ## The patterns of an expression -/

/-- The patterns of an expression are those that its leaves name. -/
theorem Expression.mem_patternIds_iff {e : Expression} {id : String} :
    id ∈ e.patternIds ↔ ∃ l ∈ e.leaves, l.patternId = some id := by
  rw [patternIds, mem_distinctNames, List.mem_filterMap]
  exact exists_mem_nodesFrom_iff (fun _ _ => Iff.rfl) (fun _ _ h => by cases h) e 0

/-- `more` is `ms` with matches of other patterns than `ids` put in anywhere. -/
inductive InsertsForeign (ids : List String) : List Match → List Match → Prop
  | nil : InsertsForeign ids [] []
  | keep {m : Match} {ms more : List Match} (h : InsertsForeign ids ms more) :
      InsertsForeign ids (m :: ms) (m :: more)
  | insert {m : Match} {ms more : List Match} (hm : m.patternId ∉ ids)
      (h : InsertsForeign ids ms more) : InsertsForeign ids ms (m :: more)

namespace InsertsForeign

variable {ids : List String} {ms more : List Match} {m : Match}

theorem sublist (h : InsertsForeign ids ms more) : ms.Sublist more := by
  induction h with
  | nil => exact .refl _
  | keep _ ih => exact ih.cons_cons _
  | insert _ _ ih => exact ih.cons _

/-- The matches of the patterns that are asked for stay as they are. -/
theorem mem_iff (h : InsertsForeign ids ms more) (hid : m.patternId ∈ ids) :
    m ∈ more ↔ m ∈ ms := by
  refine ⟨fun hm => ?_, fun hm => h.sublist.subset hm⟩
  induction h with
  | nil => exact hm
  | keep _ ih =>
    rcases List.mem_cons.1 hm with rfl | hm
    · exact List.mem_cons_self
    · exact List.mem_cons_of_mem _ (ih hm)
  | insert hforeign _ ih =>
    rcases List.mem_cons.1 hm with rfl | hm
    · exact absurd hid hforeign
    · exact ih hm

end InsertsForeign

/-! ## Leaves that look at no bindings -/

/-- Does the operator look at what names are bound to? -/
def LeafOperator.readsBindings : LeafOperator → Bool
  | .metavariableRegex | .metavariableComparison | .patternWhere => true
  | _ => false

variable {ms more : List Match}

namespace Leaf

variable {l : Leaf}

/-- A leaf that looks at no bindings has nothing to fail at. -/
theorem fault?_keep_of_not_readsBindings (hl : l.operator.readsBindings = false)
    (env : Surroundings) (candidates : SpanSet) :
    fault? (l.keep env candidates).result = none := by
  unfold keep
  cases hop : l.operator <;> rw [hop] at hl
  case metavariableRegex | metavariableComparison | patternWhere => cases hl
  all_goals rfl

/-- A leaf that looks at no bindings asks for an interval and for the matches of its pattern. -/
theorem accepts_congr_of_not_readsBindings (hl : l.operator.readsBindings = false)
    (hmem : ∀ m : Match, l.patternId = some m.patternId → (m ∈ ms ↔ m ∈ more)) {s t : Span}
    (hi : s.interval = t.interval) : l.Accepts ms s ↔ l.Accepts more t := by
  have hstart : s.start = t.start := congrArg Prod.fst hi
  have hstop : s.stop = t.stop := congrArg Prod.snd hi
  -- what the leaf asks of a match of its pattern is the same on both sides
  have hexists : ∀ p q : Match → Prop, (∀ m, p m ↔ q m) →
      ((∃ m ∈ ms, l.patternId = some m.patternId ∧ p m) ↔
        ∃ m ∈ more, l.patternId = some m.patternId ∧ q m) := by
    intro p q hpq
    refine exists_congr fun m => ?_
    rw [hpq m, and_left_comm, and_left_comm (a := m ∈ more)]
    exact and_congr_right fun hid => by rw [hmem m hid]
  have hfinds : l.Finds ms s ↔ l.Finds more t :=
    hexists _ _ fun m => by rw [Span.sameInterval_iff, Span.sameInterval_iff, hi]
  have hencloses : l.Encloses ms s ↔ l.Encloses more t :=
    hexists _ _ fun m => by rw [hstart, hstop]
  have henclosed : l.EnclosedBy ms s ↔ l.EnclosedBy more t :=
    hexists _ _ fun m => by rw [hstart, hstop]
  unfold Accepts
  cases hop : l.operator <;> rw [hop] at hl
  case metavariableRegex | metavariableComparison | patternWhere => cases hl
  case pattern | patternRegex => exact hfinds
  case patternNot => exact not_congr hfinds
  case patternInside => exact hencloses
  case patternNotInside => exact not_congr hencloses
  case patternNotRegex => exact not_congr henclosed

end Leaf

namespace Expression

variable {e : Expression}

/-! ## Two runs -/

/-- An expression that looks at no bindings has a result. -/
theorem exists_evaluate_eq_ok (he : ∀ l ∈ e.leaves, l.operator.readsBindings = false)
    (env : Surroundings) : ∃ kept trace, (e.evaluate env).result = .ok (kept, trace) := by
  have hnone : fault? (e.evaluate env).result = none := fault?_evaluate_eq_none_iff.2 fun l hl =>
    Leaf.fault?_keep_of_not_readsBindings (he l hl) env _
  obtain ⟨⟨kept, trace⟩, h⟩ := Outcome.fault?_eq_none_iff.1 hnone
  exact ⟨kept, trace, h⟩

/-- Foreign matches do not change what the expression says of an interval. -/
theorem accepts_insertsForeign (he : ∀ l ∈ e.leaves, l.operator.readsBindings = false)
    (h : InsertsForeign e.patternIds ms more) {s t : Span} (hi : s.interval = t.interval) :
    e.Accepts ms s ↔ e.Accepts more t := by
  refine accepts_congr fun l hl => ?_
  refine Leaf.accepts_congr_of_not_readsBindings (he l hl) (fun m hid => ?_) hi
  exact (h.mem_iff (mem_patternIds_iff.2 ⟨l, hl, hid⟩)).symm

/-- Foreign matches do not change what the expression says of an interval that was there before. -/
theorem acceptsLast_insertsForeign (he : ∀ l ∈ e.leaves, l.operator.readsBindings = false)
    (h : InsertsForeign e.patternIds ms more) {m : Match} (hm : m ∈ ms) :
    e.AcceptsLast ms m.span ↔ e.AcceptsLast more m.span := by
  obtain ⟨last, hlast⟩ := Registry.exists_last? hm
  obtain ⟨last', hlast'⟩ := Registry.exists_last? (h.sublist.subset hm)
  have hi : last.span.interval = last'.span.interval :=
    (Registry.last?_eq_some hlast).2.trans (Registry.last?_eq_some hlast').2.symm
  simp only [AcceptsLast, hlast, hlast', Option.some.injEq, exists_eq_left']
  exact accepts_insertsForeign he h hi

/-- An expression that looks at no bindings has a result with foreign matches and without them, and of
    the intervals that were there before it keeps the same ones. -/
theorem evaluate_insertsForeign (he : ∀ l ∈ e.leaves, l.operator.readsBindings = false)
    (h : InsertsForeign e.patternIds ms more) (allowExec : Bool) :
    ∃ kept trace kept' trace',
      (e.evaluate ⟨.ofMatches ms, allowExec⟩).result = .ok (kept, trace) ∧
      (e.evaluate ⟨.ofMatches more, allowExec⟩).result = .ok (kept', trace') ∧
      (kept'.intervals.filter fun i => ∃ m ∈ ms, m.span.interval = i) = kept.intervals := by
  obtain ⟨kept, trace, hkept⟩ := exists_evaluate_eq_ok he ⟨.ofMatches ms, allowExec⟩
  obtain ⟨kept', trace', hkept'⟩ := exists_evaluate_eq_ok he ⟨.ofMatches more, allowExec⟩
  refine ⟨kept, trace, kept', trace', hkept, hkept', ?_⟩
  refine (kept'.intervals_sorted.filter _).eq_of_mem_iff kept.intervals_sorted fun i => ?_
  rw [List.mem_filter, decide_eq_true_eq]
  -- on an interval of `ms` both runs say the same
  have hsame : ∀ m ∈ ms, (m.span.interval ∈ kept.intervals ↔ m.span.interval ∈ kept'.intervals) := by
    intro m hm
    rw [interval_mem_evaluate_iff hkept, interval_mem_evaluate_iff hkept']
    exact acceptsLast_insertsForeign he h hm
  constructor
  · rintro ⟨hi, m, hm, rfl⟩
    exact (hsame m hm).2 hi
  · intro hi
    obtain ⟨last, hlast, -⟩ := (interval_mem_evaluate_iff hkept ⟨i.1, i.2, []⟩).1 hi
    obtain ⟨hm, hinterval⟩ := Registry.last?_eq_some hlast
    have hlasti : last.span.interval = i := hinterval
    exact ⟨hlasti ▸ (hsame last hm).1 (hlasti ▸ hi), last, hm, hlasti⟩

/-- What is found by one pattern or not by another one. -/
def foundOrElse : Expression :=
  .group .either (.leaf ⟨.pattern, some "p", none⟩) [.leaf ⟨.patternNot, some "q", none⟩]

/-- A foreign match at the interval of another one changes nothing, and one at an interval of its own
    adds nothing but that interval. -/
theorem evaluate_insertsForeign_found :
    ∃ kept trace kept' trace',
      (foundOrElse.evaluate ⟨.ofMatches [.bare "p" 0 5, .bare "q" 6 8], false⟩).result =
        .ok (kept, trace) ∧
      (foundOrElse.evaluate ⟨.ofMatches
        [.bare "r" 7 9, .bare "p" 0 5, .bare "r" 6 8, .bare "q" 6 8, .bare "r" 0 5], false⟩).result =
        .ok (kept', trace') ∧
      kept.intervals = [(0, 5)] ∧ kept'.intervals = [(0, 5), (7, 9)] ∧
      (kept'.intervals.filter fun i => ∃ m ∈ [Match.bare "p" 0 5, .bare "q" 6 8],
        m.span.interval = i) = kept.intervals := by
  have hforeign : ∀ start stop, (Match.bare "r" start stop).patternId ∉ foundOrElse.patternIds := by
    intro start stop
    show "r" ∉ foundOrElse.patternIds
    decide
  obtain ⟨kept, trace, kept', trace', h, h', hsame⟩ := evaluate_insertsForeign
    (e := foundOrElse) (by decide)
    (.insert (hforeign 7 9) (.keep (.insert (hforeign 6 8) (.keep (.insert (hforeign 0 5) .nil)))))
    false
  have hkept : Outcome.intervals? (foundOrElse.evaluate
      ⟨.ofMatches [.bare "p" 0 5, .bare "q" 6 8], false⟩).result = some [(0, 5)] := by rfl
  have hkept' : Outcome.intervals? (foundOrElse.evaluate ⟨.ofMatches
      [.bare "r" 7 9, .bare "p" 0 5, .bare "r" 6 8, .bare "q" 6 8, .bare "r" 0 5], false⟩).result =
      some [(0, 5), (7, 9)] := by rfl
  rw [h] at hkept
  rw [h'] at hkept'
  exact ⟨kept, trace, kept', trace', h, h', Option.some.inj hkept, Option.some.inj hkept', hsame⟩

end Expression

end RuleSieve
