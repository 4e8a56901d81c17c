/-
  What a registry makes of the matches it is given.

  Nothing is lost and nothing is made up (`Registry.holds_ofMatches`).  Where a set of spans is made,
  an interval is represented by the span of its last match (`Collects`).  It makes no difference
  whether the spans of all patterns are collected at once, or those of each pattern first
  (`SpanSet.ofList_flatMap_spans`): the last match of an interval is the last one in the last group that
  has the interval.
-/
import RuleSieve.Proofs.Trace

namespace RuleSieve

/-! ## Sets of spans -/

namespace SpanSet

instance : Std.Irrefl Span.Before := ⟨Span.Before.irrefl⟩

instance : Std.Antisymm Span.Before :=
  ⟨fun a _ h₁ h₂ => absurd (h₁.trans h₂) (Span.Before.irrefl a)⟩

/-- A set is known by the span that is found for each interval. -/
theorem ext_find? {a b : SpanSet} (h : ∀ s, a.find? s = b.find? s) : a = b := by
  have hmem : ∀ s, s ∈ a.spans ↔ s ∈ b.spans := by
    intro s
    have hfound : a.find? s = some s ↔ b.find? s = some s := by rw [h]
    rwa [find?_eq_some_iff, find?_eq_some_iff, and_iff_left rfl, and_iff_left rfl] at hfound
  have hspans : a.spans = b.spans := a.ordered.eq_of_mem_iff b.ordered hmem
  cases a
  cases b
  cases hspans
  rfl

/-- A set has one span of an interval, so it does not matter from where it is searched. -/
theorem find?_reverse_spans (set : SpanSet) (s : Span) :
    (set.spans.reverse.find? fun t => t.SameInterval s) = set.find? s := by
  cases hfound : set.find? s with
  | none =>
    rw [find?, List.find?_eq_none] at hfound
    exact List.find?_eq_none.2 fun t ht => hfound t (List.mem_reverse.1 ht)
  | some t =>
    obtain ⟨ht, hi⟩ := find?_eq_some_iff.1 hfound
    have hsome : (set.spans.reverse.find? fun t => t.SameInterval s).isSome := by
      rw [List.find?_isSome]
      exact ⟨t, List.mem_reverse.2 ht, by simpa using Span.sameInterval_iff.2 hi⟩
    obtain ⟨u, hu⟩ := Option.isSome_iff_exists.1 hsome
    have husame : u.SameInterval s := by simpa using List.find?_some hu
    rw [hu, eq_of_interval_eq (List.mem_reverse.1 (List.mem_of_find?_eq_some hu)) ht
      ((Span.sameInterval_iff.1 husame).trans hi.symm)]

/-- Spans can be collected group by group first. -/
theorem ofList_flatMap_spans (groups : List (List Span)) :
    ofList (groups.flatMap fun group => (ofList group).spans) = ofList groups.flatten := by
  refine ext_find? fun s => ?_
  rw [find?_ofList, find?_ofList]
  induction groups with
  | nil => rfl
  | cons group groups ih =>
    rw [List.flatMap_cons, List.flatten_cons, List.reverse_append, List.reverse_append,
      List.find?_append, List.find?_append, ih, find?_reverse_spans, find?_ofList]

end SpanSet

/-! ## The spans of matches -/

/-- The spans have the intervals of the matches, each once and in order, and that of an interval is the
    span of the last match with it. -/
structure Collects (ms : List Match) (spans : List Span) : Prop where
  ordered : spans.Pairwise Span.Before
  intervals : ∀ i, (∃ s ∈ spans, s.interval = i) ↔ ∃ m ∈ ms, m.span.interval = i
  last : ∀ s ∈ spans, ∃ before m after, ms = before ++ m :: after ∧ m.span = s ∧
    ∀ later ∈ after, later.span.interval ≠ s.interval

theorem collects_ofList (ms : List Match) :
    Collects ms (SpanSet.ofList (ms.map (·.span))).spans where
  ordered := SpanSet.ordered _
  intervals i := by
    rw [← SpanSet.mem_intervals, SpanSet.mem_intervals_ofList]
    simp
  last s hs := by
    have hfound : (SpanSet.ofList (ms.map (·.span))).find? s = some s :=
      SpanSet.find?_eq_some_iff.2 ⟨hs, rfl⟩
    rw [SpanSet.find?_ofList, ← List.map_reverse, List.find?_map, Option.map_eq_some_iff] at hfound
    obtain ⟨m, hm, rfl⟩ := hfound
    -- from the end on, the match is the first one of its interval
    obtain ⟨-, after, before, hsplit, hafter⟩ := List.find?_eq_some_iff_append.1 hm
    refine ⟨before.reverse, m, after.reverse, ?_, rfl, fun later hlater => ?_⟩
    · rw [← List.reverse_inj, hsplit]
      simp
    · have hlater := hafter later (List.mem_reverse.1 hlater)
      simpa [Span.sameInterval_iff] using hlater

/-! ## Bindings -/

theorem Dict.valuesUnder_ne_nil_iff {α : Type} {name : String} {d : Dict α} :
    Dict.valuesUnder name d ≠ [] ↔ d.has name = true := by
  rw [Dict.has_iff, Dict.names, Dict.valuesUnder, ne_eq, List.map_eq_nil_iff,
    List.filter_eq_nil_iff]
  simp

/-- A name is bound by some match just if it is bound to something. -/
theorem boundIn_ne_nil_iff {ms : List Match} {id name : String} :
    boundIn ms (some id) name ≠ [] ↔ ∃ m ∈ ms, m.patternId = id ∧ m.binds name = true := by
  rw [Registry.boundIn_some, ne_eq, List.flatMap_eq_nil_iff]
  simp only [not_forall, exists_prop, List.mem_filter, beq_iff_eq, and_assoc]
  exact exists_congr fun m => and_congr_right' (and_congr_right' Dict.valuesUnder_ne_nil_iff)

/-! ## Registries -/

namespace Registry

/-- The registry says of the matches what is to be said of them. -/
structure Holds (r : Registry) (ms : List Match) : Prop where
  /-- All matches are those given, sorted by pattern; those of one pattern keep their order. -/
  allMatches : r.allMatches = sortBy (·.patternId) ms
  matchesFor : ∀ id, r.matchesFor id = ms.filter (·.patternId == id)
  allSpans : Collects r.allMatches r.allSpans.spans
  /-- The patterns are in the order of the bytes of their ids. -/
  patterns : r.spansByPattern.names.Pairwise fun id id' => Text.bytes id < Text.bytes id'
  mem_patterns : ∀ id, id ∈ r.spansByPattern.names ↔ ∃ m ∈ ms, m.patternId = id
  spans : ∀ id spans, (id, spans) ∈ r.spansByPattern →
    Collects (ms.filter (·.patternId == id)) spans
  /-- The spans of the patterns together are those of all matches. -/
  union : SpanSet.ofList (r.spansByPattern.flatMap (·.2)) = r.allSpans
  intervals : ∀ i, i ∈ r.allSpans.intervals ↔ ∃ m ∈ ms, m.span.interval = i
  /-- A name is listed just if some match of the pattern binds it. -/
  names : ∀ id name, (r.bindingsFor (some id)).has name = true ↔
    ∃ m ∈ ms, m.patternId = id ∧ m.binds name = true
  bindings : ∀ id name bindings, (r.bindingsFor (some id)).find? name = some bindings →
    bindings = (ms.filter (·.patternId == id)).flatMap fun m => Dict.valuesUnder name m.bindings

theorem collects_of_mem_spansByPattern {ms : List Match} {id : String} {spans : List Span}
    (h : (id, spans) ∈ (ofMatches ms).spansByPattern) :
    Collects (ms.filter (·.patternId == id)) spans := by
  rw [(spansByPattern_sorted ms).mem_iff, find?_spansByPattern] at h
  split at h
  · cases h
  · obtain rfl := Option.some.inj h
    exact collects_ofList _

/-- The spans of all patterns, collected pattern by pattern, are those of all matches. -/
theorem ofList_spansByPattern (r : Registry) :
    SpanSet.ofList (r.spansByPattern.flatMap (·.2)) = r.allSpans := by
  have hgroups := SpanSet.ofList_flatMap_spans (r.groups.map fun entry => entry.2.map (·.span))
  rw [List.flatMap_map, ← List.flatMap_def] at hgroups
  rw [spansByPattern_eq, List.flatMap_map, allSpans, Registry.allMatches, List.map_flatMap]
  exact hgroups

theorem has_bindingsFor_iff {ms : List Match} {id name : String} :
    ((ofMatches ms).bindingsFor (some id)).has name = true ↔
      ∃ m ∈ ms, m.patternId = id ∧ m.binds name = true := by
  rw [← boundIn_ne_nil_iff, Dict.has, (bindingsFor_tells ms (some id)).find?]
  split
  · next hnone => exact iff_of_false Bool.false_ne_true (not_not_intro hnone)
  · next hsome => exact iff_of_true rfl hsome

/-- **A registry loses nothing and keeps the order of what it is given.** -/
theorem holds_ofMatches (ms : List Match) : (ofMatches ms).Holds ms where
  allMatches := allMatches_eq ms
  matchesFor := matchesFor_ofMatches ms
  allSpans := collects_ofList _
  patterns := by
    have hsorted := spansByPattern_sorted ms
    rw [Dict.names, List.pairwise_map]
    exact hsorted.imp fun hlt => (Text.bytes_lt_iff _ _).2 hlt
  mem_patterns id := by
    rw [spansByPattern_eq, Dict.names, List.map_map, groups_ofMatches]
    exact Dict.mem_names_groupBy
  spans _ _ h := collects_of_mem_spansByPattern h
  union := ofList_spansByPattern _
  intervals i := by
    have hcollects : Collects (ofMatches ms).allMatches (ofMatches ms).allSpans.spans :=
      collects_ofList _
    rw [SpanSet.mem_intervals, hcollects.intervals]
    simp only [mem_allMatches]
  names _ _ := has_bindingsFor_iff
  bindings id name bindings h := by
    rw [(bindingsFor_tells ms (some id)).find?] at h
    split at h
    · cases h
    · rw [← Option.some.inj h, boundIn_some]

end Registry

end RuleSieve
