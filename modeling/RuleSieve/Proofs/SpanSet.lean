/-
  What a set of spans holds.

  A set is known by its intervals: sets with the same intervals have them in the same order.  Which
  span stands for an interval is another matter; of the spans that are collected into a set it is the
  last one of the interval (`find?_ofList`).
-/
import Mathlib.Data.List.Sort
import RuleSieve.Span

namespace RuleSieve

/-! ## Intervals -/

namespace Span

/-- The offsets of a span, without the names that are bound in it. -/
def interval (s : Span) : Nat × Nat := (s.start, s.stop)

/-- Spans have one interval if their ends are the same. -/
theorem sameInterval_iff {a b : Span} : a.SameInterval b ↔ a.interval = b.interval := by
  simp [SameInterval, interval]

/-- Of two spans one of which comes before the other, the intervals differ. -/
theorem Before.interval_ne {a b : Span} (h : a.Before b) : a.interval ≠ b.interval := by
  simp only [Before, interval, ne_eq, Prod.mk.injEq] at *; omega

theorem encloses_iff {a b : Span} : a.encloses b = true ↔ a.start ≤ b.start ∧ b.stop ≤ a.stop := by
  simp [encloses]

theorem binds_iff {a : Span} {name : String} : a.binds name = true ↔ name ∈ a.vars := by
  simp [binds]

end Span

namespace SpanSet

/-- The intervals of a set, in order. -/
def intervals (set : SpanSet) : List (Nat × Nat) := set.spans.map Span.interval

/-- The intervals of a set are those of its spans. -/
theorem mem_intervals {set : SpanSet} {i : Nat × Nat} :
    i ∈ set.intervals ↔ ∃ s ∈ set.spans, s.interval = i :=
  List.mem_map

/-- A set contains a span if it has the interval. -/
theorem contains_iff {set : SpanSet} {s : Span} :
    set.contains s = true ↔ s.interval ∈ set.intervals := by
  simp [contains, mem_intervals, Span.sameInterval_iff]

/-- Intervals by their starts, and then by their stops. -/
def Earlier (i j : Nat × Nat) : Prop := i.1 < j.1 ∨ (i.1 = j.1 ∧ i.2 < j.2)

instance : Std.Irrefl Earlier := ⟨fun i h => by simp only [Earlier] at h; omega⟩

instance : Std.Antisymm Earlier := ⟨fun i j h₁ h₂ => by simp only [Earlier] at *; omega⟩

/-- The intervals of a set increase, so that there are no two equal ones. -/
theorem intervals_sorted (set : SpanSet) : set.intervals.Pairwise Earlier := by
  rw [intervals, List.pairwise_map]
  exact set.ordered

/-- The order of the intervals is no choice. -/
theorem intervals_ext {a b : SpanSet} (h : ∀ i, i ∈ a.intervals ↔ i ∈ b.intervals) :
    a.intervals = b.intervals :=
  a.intervals_sorted.eq_of_mem_iff b.intervals_sorted h

/-- A set has one span of each interval. -/
theorem eq_of_interval_eq {set : SpanSet} {s t : Span} (hs : s ∈ set.spans) (ht : t ∈ set.spans)
    (h : s.interval = t.interval) : s = t :=
  List.inj_on_of_nodup_map set.intervals_sorted.nodup hs ht h

/-- Looking an interval up finds its span. -/
theorem find?_eq_some_iff {set : SpanSet} {s t : Span} :
    set.find? s = some t ↔ t ∈ set.spans ∧ t.interval = s.interval := by
  constructor
  · intro h
    have hsame : t.SameInterval s := by simpa using List.find?_some h
    exact ⟨List.mem_of_find?_eq_some h, Span.sameInterval_iff.1 hsame⟩
  · rintro ⟨ht, hi⟩
    obtain ⟨u, hu⟩ : ∃ u, set.find? s = some u := by
      rw [← Option.isSome_iff_exists, find?, List.find?_isSome]
      exact ⟨t, ht, by simpa using Span.sameInterval_iff.2 hi⟩
    have husame : u.SameInterval s := by simpa using List.find?_some hu
    rw [hu, eq_of_interval_eq (List.mem_of_find?_eq_some hu) ht
      ((Span.sameInterval_iff.1 husame).trans hi.symm)]

/-! ## Filtering -/

theorem mem_filter {set : SpanSet} {p : Span → Bool} {s : Span} :
    s ∈ (set.filter p).spans ↔ s ∈ set.spans ∧ p s = true :=
  List.mem_filter

/-- The intervals of `kept` are those of the candidates that satisfy a condition. -/
def Selects (candidates : SpanSet) (p : Span → Prop) (kept : SpanSet) : Prop :=
  ∀ i, i ∈ kept.intervals ↔ ∃ s ∈ candidates.spans, s.interval = i ∧ p s

/-- Filtering by a decidable test selects what passes it. -/
theorem selects_filter {candidates : SpanSet} {p : Span → Prop} {q : Span → Bool}
    (h : ∀ s ∈ candidates.spans, q s = true ↔ p s) :
    candidates.Selects p (candidates.filter q) := by
  intro i
  rw [mem_intervals]
  constructor
  · rintro ⟨s, hs, hi⟩
    obtain ⟨hs, hq⟩ := mem_filter.1 hs
    exact ⟨s, hs, hi, (h s hs).1 hq⟩
  · rintro ⟨s, hs, hi, hp⟩
    exact ⟨s, mem_filter.2 ⟨hs, (h s hs).2 hp⟩, hi⟩

/-- Filtering by the opposite of a test selects what does not pass it. -/
theorem selects_filter_not {candidates : SpanSet} {p : Span → Prop} {q : Span → Bool}
    (h : ∀ s ∈ candidates.spans, q s = true ↔ p s) :
    candidates.Selects (fun s => ¬ p s) (candidates.filter fun s => !q s) :=
  selects_filter fun s hs => by rw [← h s hs, Bool.not_eq_true', Bool.not_eq_true]

/-- What is selected depends on the property only. -/
theorem Selects.congr {candidates kept : SpanSet} {p q : Span → Prop}
    (h : candidates.Selects p kept) (hpq : ∀ s, p s ↔ q s) : candidates.Selects q kept := by
  intro i
  simp only [h i, hpq]

/-- Whether a candidate is among the kept ones depends on the candidate alone. -/
theorem Selects.contains_iff {candidates kept : SpanSet} {p : Span → Prop}
    (h : candidates.Selects p kept) {s : Span} (hs : s ∈ candidates.spans) :
    kept.contains s = true ↔ p s := by
  rw [SpanSet.contains_iff, h]
  constructor
  · rintro ⟨t, ht, hi, hp⟩
    exact eq_of_interval_eq ht hs hi ▸ hp
  · exact fun hp => ⟨s, hs, rfl, hp⟩

/-- A condition and its negation divide a set. -/
theorem filter_append_filter_not (set : SpanSet) (p : Span → Bool) :
    ((set.filter p).intervals ++ (set.filter fun s => !p s).intervals).Perm set.intervals := by
  rw [intervals, intervals, ← List.map_append]
  exact (List.filter_append_perm p set.spans).map _

/-! ## Putting spans in -/

/-- A span that is put in its place adds its interval and changes no other. -/
theorem any_place {s x : Span} {choose : Span → Span}
    (hc : ∀ t, t.SameInterval x → (choose t).SameInterval t) (ts : List Span) :
    (place x choose ts).any (fun t => t.SameInterval s) =
      (decide (x.SameInterval s) || ts.any fun t => t.SameInterval s) := by
  induction ts with
  | nil => rfl
  | cons t ts ih =>
    rw [place]
    split
    · rfl
    · split
      · rw [List.any_cons, List.any_cons, ih, Bool.or_left_comm]
      · next hxt htx =>
        -- the span that stays has the interval of the one that was put in
        have htx' : t.interval = x.interval :=
          Span.sameInterval_iff.1 (Span.sameInterval_of_not_before htx hxt)
        have hct : (choose t).interval = t.interval :=
          Span.sameInterval_iff.1 (hc t (Span.sameInterval_iff.2 htx'))
        simp only [List.any_cons, Span.sameInterval_iff, hct, htx', ← Bool.or_assoc, Bool.or_self]

/-- Inserting a span adds its interval. -/
theorem contains_insert (set : SpanSet) (x s : Span) :
    (set.insert x).contains s = (decide (x.SameInterval s) || set.contains s) :=
  any_place (fun _ _ => ⟨rfl, rfl⟩) set.spans

theorem mem_intervals_insert {set : SpanSet} {x : Span} {i : Nat × Nat} :
    i ∈ (set.insert x).intervals ↔ i = x.interval ∨ i ∈ set.intervals := by
  have h := contains_insert set x ⟨i.1, i.2, []⟩
  rw [Bool.eq_iff_iff, Bool.or_eq_true, contains_iff, contains_iff, decide_eq_true_eq,
    Span.sameInterval_iff, eq_comm] at h
  exact h

/-- A span that is put in place of another one is found in its place. -/
theorem find?_place (x s : Span) (ts : List Span) :
    (place x (fun _ => x) ts).find? (fun t => t.SameInterval s) =
      if x.SameInterval s then some x else ts.find? fun t => t.SameInterval s := by
  induction ts with
  | nil => by_cases h : x.SameInterval s <;> simp [place, h]
  | cons t ts ih =>
    rw [place]
    split
    · by_cases h : x.SameInterval s <;> simp [h]
    · split
      · next htx =>
        -- `t` comes before `x`, so only one of them can have the interval
        by_cases hts : t.SameInterval s
        · have hxs : ¬ x.SameInterval s := by
            rw [Span.sameInterval_iff] at *
            exact fun h => htx.interval_ne (hts.trans h.symm)
          simp [hts, hxs]
        · simp [hts, ih]
      · next hxt htx =>
        -- `x` takes the place of `t`
        have hsame := Span.sameInterval_of_not_before htx hxt
        by_cases hxs : x.SameInterval s
        · simp [hxs]
        · have hts : ¬ t.SameInterval s := by
            rw [Span.sameInterval_iff] at *
            exact fun h => hxs (hsame.symm.trans h)
          simp [hxs, hts]

/-- Replacing a span gives its interval to the new span and leaves the other spans. -/
theorem find?_replace (set : SpanSet) (x s : Span) :
    (set.replace x).find? s = if x.SameInterval s then some x else set.find? s :=
  find?_place x s set.spans

/-! ## Collecting spans -/

/-- Of several spans of one interval a set takes the last. -/
theorem find?_ofList (spans : List Span) (s : Span) :
    (ofList spans).find? s = spans.reverse.find? fun t => t.SameInterval s := by
  -- what was there before the first span is found only if no span has the interval
  suffices h : ∀ set : SpanSet, (spans.foldl replace set).find? s =
      (spans.reverse.find? fun t => t.SameInterval s).or (set.find? s) by
    rw [ofList, h]
    exact Option.or_none
  induction spans with
  | nil => exact fun set => rfl
  | cons x spans ih =>
    intro set
    rw [List.foldl_cons, ih, find?_replace, List.reverse_cons, List.find?_append, Option.or_assoc]
    by_cases h : x.SameInterval s <;> simp [h]

theorem contains_eq_isSome_find? (set : SpanSet) (s : Span) :
    set.contains s = (set.find? s).isSome := by
  rw [contains, find?, List.isSome_find?]

/-- A set of spans holds none but them. -/
theorem mem_of_mem_ofList {spans : List Span} {s : Span} (h : s ∈ (ofList spans).spans) :
    s ∈ spans := by
  have hfind : (ofList spans).find? s = some s := find?_eq_some_iff.2 ⟨h, rfl⟩
  rw [find?_ofList] at hfind
  exact List.mem_reverse.1 (List.mem_of_find?_eq_some hfind)

/-- A set of spans has their intervals and no other ones. -/
theorem mem_intervals_ofList {spans : List Span} {i : Nat × Nat} :
    i ∈ (ofList spans).intervals ↔ ∃ s ∈ spans, s.interval = i := by
  have h : (ofList spans).contains ⟨i.1, i.2, []⟩ = true ↔ i ∈ (ofList spans).intervals :=
    contains_iff
  rw [← h, contains_eq_isSome_find?, find?_ofList, List.find?_isSome]
  simp [Span.sameInterval_iff, Span.interval]

end SpanSet

end RuleSieve
