/-
  What the filters keep, and when they fail.

  Each filter is described twice: the intervals that it keeps, by a condition on one candidate and the
  matches, and its fault, if there is one.  Neither description looks at the other candidates, and the
  fault of a filter on bound texts looks at its operand only.
-/
import RuleSieve.Filter
import RuleSieve.Proofs.Outcome
import RuleSieve.Proofs.SpanSet

namespace RuleSieve

open Outcome (fault?)

/-! ## Conditions on a text -/

namespace MetavariableCondition

/-- The regular expression of the condition matches the text at its start, where it stands in a group
    after the mark for the start of a text. -/
def RegexMatches (c : MetavariableCondition) (text : String) : Prop :=
  ∃ pattern regex, c.regex = some pattern ∧
    Regex.compile ("\\A(?:" ++ pattern ++ ")").toList = .ok regex ∧ regex.isMatch text.toList = true

/-- The text writes a number, and the comparison holds of it. -/
def ComparisonHolds (c : MetavariableCondition) (text : String) : Prop :=
  ∃ source comparison number value, c.comparison = some source ∧
    Predicate.parse source = .ok comparison ∧
    NumberText.read? text (c.strip.getD false) c.base = some number ∧
    comparison.evaluate [(c.metavariable, number)] = .ok value ∧ value.truthy = true

end MetavariableCondition

namespace Filter

/-- Some match of the interval of the span binds the name to a text with the property. -/
def BoundTo (ms : List Match) (name : String) (p : String → Prop) (s : Span) : Prop :=
  ∃ m ∈ ms, m.span.SameInterval s ∧ ∃ text, m.value? name = some text ∧ p text

/-- The source is a predicate, and it is true at the match. -/
def WhereTrue (source : String) (m : Match) : Prop :=
  ∃ predicate, Predicate.parse source = .ok predicate ∧
    predicate.evaluate (whereScope m) = .ok (.bool true)

/-! ## Judging spans -/

/-- Some match passes a test, with the notes of the test left out. -/
theorem someMatch_iff {test : Match → Verdict} {ms : List Match} :
    (someMatch test ms).1 = true ↔ ∃ m ∈ ms, (test m).1 = true := by
  induction ms with
  | nil => simp [someMatch]
  | cons m ms ih =>
    rw [someMatch, List.exists_mem_cons_iff, ← ih]
    cases h : (test m).1 <;> simp [h]

/-- A span is kept if it knows the name and a match of its interval binds it to a text that passes. -/
theorem judgeSpan_iff {name : String} {ms : List Match} {test : String → Verdict} {s : Span} :
    (judgeSpan name ms test s).1 = true ↔
      name ∈ s.vars ∧ BoundTo ms name (fun text => (test text).1 = true) s := by
  unfold judgeSpan
  by_cases hb : s.binds name = true
  · have htest : ∀ m : Match, (if m.span.SameInterval s
          then (m.value? name).elim (false, []) test else (false, [])).1 = true ↔
        m.span.SameInterval s ∧ ∃ text, m.value? name = some text ∧ (test text).1 = true := by
      intro m
      cases m.value? name <;> by_cases hs : m.span.SameInterval s <;> simp [hs]
    rw [if_neg (by simpa using hb), someMatch_iff, BoundTo]
    simp only [htest, Span.binds_iff.1 hb, true_and]
  · rw [if_pos (by simpa using hb)]
    simp [mt Span.binds_iff.2 hb]

theorem retainBound_selects {candidates kept : SpanSet} {name : String} {ms : List Match}
    {test : Span → String → Verdict}
    (h : (retainBound candidates name ms test).result = .ok kept) :
    candidates.Selects
      (fun s => name ∈ s.vars ∧ BoundTo ms name (fun text => (test s text).1 = true) s) kept := by
  obtain rfl := Except.ok.inj h
  exact SpanSet.selects_filter fun s _ => judgeSpan_iff

/-- What is kept are candidates, as they are. -/
theorem retainBound_subset {candidates kept : SpanSet} {name : String} {ms : List Match}
    {test : Span → String → Verdict}
    (h : (retainBound candidates name ms test).result = .ok kept) :
    ∀ s ∈ kept.spans, s ∈ candidates.spans := by
  obtain rfl := Except.ok.inj h
  exact fun s hs => (SpanSet.mem_filter.1 hs).1

/-! ## By regular expression -/

/-- A pattern is compiled in a group behind the anchor of the start. -/
theorem anchoredRegex_eq_ok_iff {pattern : String} {regex : Regex} :
    anchoredRegex pattern = .ok regex ↔
      Regex.compile ("\\A(?:" ++ pattern ++ ")").toList = .ok regex := by
  have hanchored : ("\\A(?:" ++ pattern ++ ")").toList = Regex.anchored pattern.toList := by
    simp [Regex.anchored]
  rw [anchoredRegex, hanchored, Outcome.mapError_eq_ok_iff]

/-- A filter by a regex adds no span. -/
theorem byRegex_subset {candidates kept : SpanSet} {ms : List Match} {c : MetavariableCondition}
    (h : (byRegex candidates ms c).result = .ok kept) : ∀ s ∈ kept.spans, s ∈ candidates.spans := by
  obtain ⟨_, -, h⟩ := Noted.result_bind_eq_ok_iff.1 h
  obtain ⟨_, -, h⟩ := Noted.result_bind_eq_ok_iff.1 h
  exact retainBound_subset h

theorem byRegex_selects {candidates kept : SpanSet} {ms : List Match} {c : MetavariableCondition}
    (h : (byRegex candidates ms c).result = .ok kept) :
    candidates.Selects
      (fun s => c.metavariable ∈ s.vars ∧ BoundTo ms c.metavariable c.RegexMatches s) kept := by
  obtain ⟨pattern, hp, h⟩ := Noted.result_bind_eq_ok_iff.1 h
  obtain ⟨regex, hr, h⟩ := Noted.result_bind_eq_ok_iff.1 h
  have hp : c.regex = some pattern := Outcome.elim_eq_ok_iff.1 hp
  have hr := anchoredRegex_eq_ok_iff.1 hr
  -- the compiled pattern is the one that the condition speaks of
  have htext : c.RegexMatches = fun text => regex.isMatch text.toList = true := by
    funext text
    refine propext ⟨?_, fun h => ⟨pattern, regex, hp, hr, h⟩⟩
    rintro ⟨pattern', regex', hp', hr', h⟩
    obtain rfl := Option.some.inj (hp.symm.trans hp')
    obtain rfl := Except.ok.inj (hr.symm.trans hr')
    exact h
  rw [htext]
  exact retainBound_selects h

/-- Only the operand can be at fault. -/
theorem fault?_byRegex (candidates candidates' : SpanSet) (ms ms' : List Match)
    (c : MetavariableCondition) :
    fault? (byRegex candidates ms c).result = fault? (byRegex candidates' ms' c).result := by
  simp only [byRegex, Noted.result_bind, Noted.result_ofExcept]
  cases c.regex with
  | none => rfl
  | some pattern =>
    show fault? (anchoredRegex pattern >>= _) = fault? (anchoredRegex pattern >>= _)
    cases anchoredRegex pattern <;> rfl

/-! ## By comparison -/

/-- A comparison holds of a bound text if it gives true there, where the name stands for the
    text. -/
theorem comparisonHolds_iff {comparison : Predicate} {c : MetavariableCondition} {source : String}
    (hs : c.comparison = some source) (hc : Predicate.parse source = .ok comparison) (s : Span)
    (text : String) : (comparisonHolds comparison c s text).1 = true ↔ c.ComparisonHolds text := by
  simp only [MetavariableCondition.ComparisonHolds, hs, Option.some.injEq, comparisonHolds]
  cases hn : NumberText.read? text (c.strip.getD false) c.base with
  | none => simp
  | some number =>
    cases hv : comparison.evaluate [(c.metavariable, number)] with
    | error problem => simp [hc, hv]
    | ok value => simp [hc, hv]

/-- A comparison that can be read decides which bound texts pass. -/
theorem byComparison_of_parse {candidates : SpanSet} {ms : List Match} {c : MetavariableCondition}
    {source : String} {comparison : Predicate} (hsource : c.comparison = some source)
    (h : Predicate.parse source = .ok comparison) :
    byComparison candidates ms c =
      retainBound candidates c.metavariable ms (comparisonHolds comparison c) := by
  rw [byComparison, hsource]
  show (Noted.ofExcept ((Predicate.parse source).mapError _) >>= _) = _
  rw [h]
  rfl

/-- A filter by a comparison adds no span. -/
theorem byComparison_subset {candidates kept : SpanSet} {ms : List Match}
    {c : MetavariableCondition} (h : (byComparison candidates ms c).result = .ok kept) :
    ∀ s ∈ kept.spans, s ∈ candidates.spans := by
  obtain ⟨_, -, h⟩ := Noted.result_bind_eq_ok_iff.1 h
  obtain ⟨_, -, h⟩ := Noted.result_bind_eq_ok_iff.1 h
  exact retainBound_subset h

theorem byComparison_selects {candidates kept : SpanSet} {ms : List Match}
    {c : MetavariableCondition} (h : (byComparison candidates ms c).result = .ok kept) :
    candidates.Selects
      (fun s => c.metavariable ∈ s.vars ∧ BoundTo ms c.metavariable c.ComparisonHolds s) kept := by
  obtain ⟨source, hs, h⟩ := Noted.result_bind_eq_ok_iff.1 h
  obtain ⟨comparison, hc, h⟩ := Noted.result_bind_eq_ok_iff.1 h
  have hs : c.comparison = some source := Outcome.elim_eq_ok_iff.1 hs
  have hc : Predicate.parse source = .ok comparison := Outcome.mapError_eq_ok_iff.1 hc
  have htext : ∀ s, (fun text => (comparisonHolds comparison c s text).1 = true) =
      c.ComparisonHolds :=
    fun s => funext fun text => propext (comparisonHolds_iff hs hc s text)
  have := retainBound_selects h
  simpa only [htext] using this

/-- Only the operand can be at fault. -/
theorem fault?_byComparison (candidates candidates' : SpanSet) (ms ms' : List Match)
    (c : MetavariableCondition) :
    fault? (byComparison candidates ms c).result =
      fault? (byComparison candidates' ms' c).result := by
  simp only [byComparison, Noted.result_bind, Noted.result_ofExcept]
  cases c.comparison with
  | none => rfl
  | some source =>
    show fault? ((Predicate.parse source).mapError _ >>= _) =
      fault? ((Predicate.parse source).mapError _ >>= _)
    cases Predicate.parse source <;> rfl

/-! ## By predicate -/

/-- A predicate holds of a match if it gives true in its scope. -/
theorem whereHolds_iff {predicate : Predicate} {m : Match} :
    (whereHolds predicate m).result = .ok true ↔
      predicate.evaluate (whereScope m) = .ok (.bool true) := by
  unfold whereHolds
  split <;> simp_all

/-- The span of a match is kept if it was kept before or the predicate holds at a match of its
    interval. -/
theorem mem_whereFrom {predicate : Predicate} {candidates kept out : SpanSet} {ms : List Match}
    (h : (whereFrom predicate candidates kept ms).result = .ok out) (i : Nat × Nat) :
    i ∈ out.intervals ↔ i ∈ kept.intervals ∨ ∃ m ∈ ms, candidates.contains m.span = true ∧
      m.span.interval = i ∧ predicate.evaluate (whereScope m) = .ok (.bool true) := by
  induction ms generalizing kept with
  | nil =>
    obtain rfl := Except.ok.inj h
    simp
  | cons m ms ih =>
    rw [whereFrom] at h
    split at h
    · next hm =>
      -- the match is judged: what it adds is its interval, or nothing
      obtain ⟨holds, hh, h⟩ := Noted.result_bind_eq_ok_iff.1 h
      rw [ih h, List.exists_mem_cons_iff, ← whereHolds_iff, hh]
      cases holds with
      | false => simp
      | true =>
        simp [hm, SpanSet.mem_intervals_insert, or_assoc, or_left_comm, eq_comm (a := i)]
    · next hm =>
      rw [ih h, List.exists_mem_cons_iff]
      simp [hm]

/-- The first candidate match at which the predicate has a value that is no truth value is at
    fault. -/
theorem fault?_whereFrom (predicate : Predicate) (candidates kept : SpanSet) (ms : List Match) :
    fault? (whereFrom predicate candidates kept ms).result =
      ms.findSome? fun m =>
        if candidates.contains m.span then fault? (whereHolds predicate m).result else none := by
  induction ms generalizing kept with
  | nil => rfl
  | cons m ms ih =>
    rw [whereFrom, List.findSome?_cons]
    split
    · rw [Noted.result_bind]
      cases (whereHolds predicate m).result with
      | error fault => rfl
      | ok holds => exact ih _
    · exact ih _

/-- A predicate that can be read is asked at the matches one by one. -/
theorem byPredicate_of_parse {candidates : SpanSet} {ms : List Match} {source : String}
    {predicate : Predicate} (h : Predicate.parse source = .ok predicate) :
    byPredicate candidates ms source = whereFrom predicate candidates .empty ms := by
  rw [byPredicate, h]

theorem byPredicate_selects {candidates kept : SpanSet} {ms : List Match} {source : String}
    (h : (byPredicate candidates ms source).result = .ok kept) :
    candidates.Selects (fun s => ∃ m ∈ ms, m.span.SameInterval s ∧ WhereTrue source m) kept := by
  intro i
  unfold byPredicate at h
  cases hp : Predicate.parse source with
  | error problem =>
    rw [hp] at h
    obtain rfl := Except.ok.inj h
    simp [WhereTrue, hp, SpanSet.intervals, SpanSet.empty]
  | ok predicate =>
    rw [hp] at h
    have hwhere : ∀ m, WhereTrue source m ↔
        predicate.evaluate (whereScope m) = .ok (.bool true) := by
      simp [WhereTrue, hp]
    -- the filter goes through the matches, and a candidate is met at each match of its interval
    rw [mem_whereFrom h]
    simp only [SpanSet.intervals, SpanSet.empty, List.map_nil, List.not_mem_nil, false_or]
    constructor
    · rintro ⟨m, hm, hc, hi, ht⟩
      obtain ⟨s, hs, hsi⟩ := SpanSet.mem_intervals.1 (SpanSet.contains_iff.1 hc)
      exact ⟨s, hs, hsi.trans hi, m, hm, Span.sameInterval_iff.2 hsi.symm, (hwhere m).2 ht⟩
    · rintro ⟨s, hs, hi, m, hm, hsame, ht⟩
      have hmi : m.span.interval = s.interval := Span.sameInterval_iff.1 hsame
      exact ⟨m, hm, SpanSet.contains_iff.2 (SpanSet.mem_intervals.2 ⟨s, hs, hmi.symm⟩),
        hmi.trans hi, (hwhere m).1 ht⟩

/-- The fault of a predicate at a match; a source that is no predicate has none. -/
def whereFault? (source : String) (m : Match) : Option Fault :=
  match Predicate.parse source with
  | .ok predicate => fault? (whereHolds predicate m).result
  | .error _ => none

/-- The fault of a filter by a predicate is that of the first match at a candidate that has one. -/
theorem fault?_byPredicate (candidates : SpanSet) (ms : List Match) (source : String) :
    fault? (byPredicate candidates ms source).result =
      ms.findSome? fun m => if candidates.contains m.span then whereFault? source m else none := by
  unfold byPredicate whereFault?
  cases Predicate.parse source with
  | error problem =>
    exact (List.findSome?_eq_none_iff.2 fun m _ => by split <;> rfl).symm
  | ok predicate => exact fault?_whereFrom predicate candidates .empty ms

end Filter

end RuleSieve
