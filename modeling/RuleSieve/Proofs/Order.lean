/-
  What depends on the order of the matches.

  Matches that share an interval share one candidate, and that candidate knows the names of one of
  them only: of the last one, pattern by pattern.  So the order of the matches has no part in whether
  an evaluation fails (`evaluate_fails_perm`), but it may have one in what is kept: a condition on a
  metavariable drops an interval that a match binds it in, if a match that does not know it is the
  last one of the interval.  Two orders give every expression one verdict just if their last matches
  know the same of the bound names (`verdict_perm`).
-/
import Mathlib.Data.List.Perm.Basic
import RuleSieve.Proofs.Faults
import RuleSieve.Proofs.Meaning
import RuleSieve.Proofs.Reachability

namespace RuleSieve

open Outcome (fault?)

/-! ## Candidates -/

namespace Registry

/-- The last match of the interval of a span, pattern by pattern. -/
def last? (r : Registry) (s : Span) : Option Match :=
  r.allMatches.reverse.find? fun m => m.span.SameInterval s

/-- Of several matches of one interval the last one gives the candidate its names. -/
theorem find?_allSpans (r : Registry) (s : Span) :
    r.allSpans.find? s = (r.last? s).map (·.span) := by
  rw [allSpans, SpanSet.find?_ofList, ← List.map_reverse, List.find?_map]
  rfl

variable {ms : List Match}

/-- The candidates have the intervals of the matches. -/
theorem mem_intervals_allSpans {i : Nat × Nat} :
    i ∈ (ofMatches ms).allSpans.intervals ↔ ∃ m ∈ ms, m.span.interval = i := by
  simp only [allSpans, SpanSet.mem_intervals_ofList, List.mem_map, mem_allMatches]
  constructor
  · rintro ⟨_, ⟨m, hm, rfl⟩, hi⟩
    exact ⟨m, hm, hi⟩
  · rintro ⟨m, hm, hi⟩
    exact ⟨m.span, ⟨m, hm, rfl⟩, hi⟩

theorem contains_allSpans {m : Match} (hm : m ∈ ms) :
    (ofMatches ms).allSpans.contains m.span = true :=
  SpanSet.contains_iff.2 (mem_intervals_allSpans.2 ⟨m, hm, rfl⟩)

/-- Where there is a match, there is a last one. -/
theorem exists_last? {m : Match} (hm : m ∈ ms) :
    ∃ last, (ofMatches ms).last? m.span = some last := by
  rw [← Option.isSome_iff_exists, last?, List.find?_isSome]
  exact ⟨m, List.mem_reverse.2 (mem_allMatches.2 hm), by simp [Span.SameInterval]⟩

theorem last?_congr (r : Registry) {s t : Span} (h : s.interval = t.interval) :
    r.last? s = r.last? t := by
  simp only [last?, Span.sameInterval_iff, h]

/-- The last match of an interval is a match of the interval. -/
theorem last?_eq_some {s : Span} {last : Match} (h : (ofMatches ms).last? s = some last) :
    last ∈ ms ∧ last.span.interval = s.interval := by
  have hsame : last.span.SameInterval s := by simpa using List.find?_some h
  exact ⟨mem_allMatches.1 (List.mem_reverse.1 (List.mem_of_find?_eq_some h)),
    Span.sameInterval_iff.1 hsame⟩

/-- An interval has a last match in one order if it has one in another. -/
theorem exists_last?_perm {ms' : List Match} {s : Span} {last : Match} (h : ms.Perm ms')
    (hlast : (ofMatches ms).last? s = some last) :
    ∃ last', (ofMatches ms').last? s = some last' := by
  obtain ⟨hmem, hi⟩ := last?_eq_some hlast
  rw [← last?_congr _ hi]
  exact exists_last? (h.mem_iff.1 hmem)

end Registry

/-! ## Faults -/

variable {ms ms' : List Match} {allowExec : Bool}

/-- Over all matches, a predicate fails just if it fails at one of them. -/
theorem Filter.fault?_byPredicate_allMatches {source : String} :
    fault? (byPredicate (Registry.ofMatches ms).allSpans (Registry.ofMatches ms).allMatches
      source).result = none ↔ ∀ m ∈ ms, whereFault? source m = none := by
  rw [fault?_byPredicate, List.findSome?_eq_none_iff]
  simp only [Registry.mem_allMatches]
  exact forall₂_congr fun m hm => by rw [if_pos (Registry.contains_allSpans hm)]

/-- Only a predicate looks at matches and candidates before it fails: it fails at the first match of a
    candidate at which it has no truth value. -/
theorem Leaf.fault?_keep_cases (l : Leaf) (allowExec : Bool) :
    (∀ (r r' : Registry) candidates candidates',
      fault? (l.keep ⟨r, allowExec⟩ candidates).result =
        fault? (l.keep ⟨r', allowExec⟩ candidates').result) ∨
    l.operator = .patternWhere ∧ ∃ source, l.operand = some (.text source) ∧
      ∀ (r : Registry) candidates, fault? (l.keep ⟨r, allowExec⟩ candidates).result =
        r.allMatches.findSome? fun m =>
          if candidates.contains m.span then Filter.whereFault? source m else none := by
  unfold keep
  cases hop : l.operator
  case pattern | patternRegex | patternNot | patternInside | patternNotInside | patternNotRegex =>
    exact .inl fun _ _ _ _ => rfl
  case metavariableRegex =>
    refine .inl fun r r' candidates candidates' => ?_
    dsimp only
    rw [Noted.result_bind, Noted.result_bind]
    cases l.recordOperand with
    | error fault => rfl
    | ok c => exact Filter.fault?_byRegex candidates candidates' _ _ c
  case metavariableComparison =>
    refine .inl fun r r' candidates candidates' => ?_
    dsimp only
    rw [Noted.result_bind, Noted.result_bind]
    cases l.recordOperand with
    | error fault => rfl
    | ok c => exact Filter.fault?_byComparison candidates candidates' _ _ c
  case patternWhere =>
    cases allowExec with
    | false => exact .inl fun _ _ _ _ => rfl
    | true =>
      cases hs : l.textOperand with
      | error fault => exact .inl fun _ _ _ _ => rfl
      | ok source =>
        refine .inr ⟨rfl, source, textOperand_eq_ok_iff.1 hs, fun r candidates => ?_⟩
        dsimp only
        rw [if_neg (by simp), Noted.result_bind]
        exact Filter.fault?_byPredicate candidates _ source

/-- A leaf that does not fail over some matches does not fail over them in another order. -/
theorem Leaf.fault?_keep_perm (h : ms.Perm ms') (l : Leaf)
    (hnone : fault? (l.keep ⟨.ofMatches ms, allowExec⟩ (Registry.ofMatches ms).allSpans).result =
      none) :
    fault? (l.keep ⟨.ofMatches ms', allowExec⟩ (Registry.ofMatches ms').allSpans).result = none := by
  rcases l.fault?_keep_cases allowExec with hsame | ⟨-, source, -, hwhere⟩
  · exact (hsame _ _ _ _).trans hnone
  · -- every match is at a candidate, so each of them has its say, whatever the order
    rw [hwhere, ← Filter.fault?_byPredicate, Filter.fault?_byPredicate_allMatches] at *
    exact fun m hm => hnone m (h.mem_iff.2 hm)

namespace Expression

/-- An expression has no fault just if no leaf has one on all candidates. -/
theorem fault?_evaluate_eq_none_iff {env : Surroundings} {e : Expression} :
    fault? (e.evaluate env).result = none ↔
      ∀ l ∈ e.leaves, fault? (l.keep env env.registry.allSpans).result = none := by
  rw [result_evaluate, Outcome.fault?_map, fault?_keep, List.findSome?_eq_none_iff]

/-- Whether an evaluation fails does not depend on the order of the matches. -/
theorem evaluate_fails_perm (h : ms.Perm ms') (e : Expression) (allowExec : Bool) :
    (∃ fault, (e.evaluate ⟨.ofMatches ms, allowExec⟩).result = .error fault) ↔
      ∃ fault, (e.evaluate ⟨.ofMatches ms', allowExec⟩).result = .error fault := by
  rw [← Outcome.fault?_ne_none_iff, ← Outcome.fault?_ne_none_iff, not_iff_not,
    fault?_evaluate_eq_none_iff, fault?_evaluate_eq_none_iff]
  constructor
  · exact fun hnone l hl => Leaf.fault?_keep_perm h l (hnone l hl)
  · exact fun hnone l hl => Leaf.fault?_keep_perm h.symm l (hnone l hl)

end Expression

/-! ## Names -/

/-- The last match of the interval of the span knows the name. -/
def KnownAt (ms : List Match) (name : String) (s : Span) : Prop :=
  ∃ last, (Registry.ofMatches ms).last? s = some last ∧ name ∈ last.span.vars

/-- Wherever a match binds the name, the last matches in the two orders agree on whether they know
    it. -/
def AgreeOn (ms ms' : List Match) (name : String) : Prop :=
  ∀ m ∈ ms, m.binds name = true → (KnownAt ms name m.span ↔ KnownAt ms' name m.span)

/-- Matches that know the same names as all others of their interval can stand in any order. -/
theorem agreeOn_of_vars (h : ms.Perm ms') {name : String}
    (hvars : ∀ m ∈ ms, ∀ k ∈ ms, m.span.interval = k.span.interval →
      (name ∈ m.span.vars ↔ name ∈ k.span.vars)) : AgreeOn ms ms' name := by
  intro m hm _
  have hknown : ∀ ns : List Match, ms.Perm ns → (KnownAt ns name m.span ↔ name ∈ m.span.vars) := by
    intro ns hns
    obtain ⟨last, hlast⟩ := Registry.exists_last? (hns.mem_iff.1 hm)
    obtain ⟨hmem, hi⟩ := Registry.last?_eq_some hlast
    rw [← hvars last (hns.mem_iff.2 hmem) m hm hi, KnownAt, hlast]
    simp
  rw [hknown ms (.refl ms), hknown ms' h]

/-- Does the leaf ask what the name is bound to? -/
def Leaf.Tests (l : Leaf) (name : String) : Prop :=
  (l.operator = .metavariableRegex ∨ l.operator = .metavariableComparison) ∧
    ∃ c, l.operand = some (.record c) ∧ c.metavariable = name

/-- Does some leaf of the expression ask what the name is bound to? -/
def Expression.Tests (e : Expression) (name : String) : Prop := ∃ l ∈ e.leaves, l.Tests name

/-- A match binds a name just if it has a text for it. -/
theorem Match.binds_iff {m : Match} {name : String} :
    m.binds name = true ↔ ∃ text, m.value? name = some text := by
  simp [binds, Dict.has, value?, Option.isSome_iff_exists]

/-- Nothing is bound to a text with a property unless a match of the interval binds it. -/
theorem Filter.boundTo_congr {name : String} {p : String → Prop} {s t : Span} {q r : Prop}
    (h : ms.Perm ms') (hi : s.interval = t.interval)
    (hqr : ∀ m ∈ ms, m.span.SameInterval s → m.binds name = true → (q ↔ r)) :
    q ∧ BoundTo ms name p s ↔ r ∧ BoundTo ms' name p t := by
  have hbound : BoundTo ms name p s ↔ BoundTo ms' name p t := by
    simp only [BoundTo, Span.sameInterval_iff, hi, h.mem_iff]
  -- `q` and `r` need to agree only where something is bound
  rw [hbound, and_congr_left_iff, ← hbound]
  rintro ⟨m, hm, hsame, text, htext, -⟩
  exact hqr m hm hsame (Match.binds_iff.2 ⟨text, htext⟩)

/-- What a leaf says of a span hangs on the interval, and on the tested names that are bound there. -/
theorem Leaf.accepts_congr (h : ms.Perm ms') {l : Leaf} {s t : Span} (hi : s.interval = t.interval)
    (hnames : ∀ name, l.Tests name → ∀ m ∈ ms, m.span.SameInterval s → m.binds name = true →
      (name ∈ s.vars ↔ name ∈ t.vars)) : l.Accepts ms s ↔ l.Accepts ms' t := by
  have hstart : s.start = t.start := congrArg Prod.fst hi
  have hstop : s.stop = t.stop := congrArg Prod.snd hi
  unfold Accepts
  cases hop : l.operator
  case metavariableRegex =>
    refine exists_congr fun c => and_congr_right fun hc => Filter.boundTo_congr h hi ?_
    exact hnames c.metavariable ⟨.inl hop, c, hc, rfl⟩
  case metavariableComparison =>
    refine exists_congr fun c => and_congr_right fun hc => Filter.boundTo_congr h hi ?_
    exact hnames c.metavariable ⟨.inr hop, c, hc, rfl⟩
  all_goals
    simp only [Finds, Encloses, EnclosedBy, Span.sameInterval_iff, hi, hstart, hstop, h.mem_iff]

/-- An expression says the same of two spans if all of its leaves do. -/
theorem Expression.accepts_congr {e : Expression} {s t : Span}
    (h : ∀ l ∈ e.leaves, (l.Accepts ms s ↔ l.Accepts ms' t)) :
    e.Accepts ms s ↔ e.Accepts ms' t := by
  induction e with
  | leaf l => simpa only [accepts_leaf, leaves, List.mem_singleton, forall_eq] using h
  | group op first rest ih =>
    have hparts : ∀ part ∈ first :: rest, (part.Accepts ms s ↔ part.Accepts ms' t) := by
      intro part hpart
      refine ih part hpart fun l hl => h l ?_
      rw [leaves_group]
      exact List.mem_flatMap.2 ⟨part, hpart, hl⟩
    cases op with
    | either =>
      rw [accepts_either, accepts_either]
      exact exists_congr fun part => and_congr_right fun hpart => hparts part hpart
    | all =>
      rw [accepts_all, accepts_all]
      exact forall₂_congr hparts

/-! ## Verdicts -/

namespace Expression

/-- The expression holds of the last match of the interval of the span. -/
def AcceptsLast (e : Expression) (ms : List Match) (s : Span) : Prop :=
  ∃ last, (Registry.ofMatches ms).last? s = some last ∧ e.Accepts ms last.span

/-- The evaluations over both lists of matches fail, or both succeed and keep the same intervals. -/
def SameVerdict (e : Expression) (allowExec : Bool) (ms ms' : List Match) : Prop :=
  Outcome.intervals? (e.evaluate ⟨.ofMatches ms, allowExec⟩).result =
    Outcome.intervals? (e.evaluate ⟨.ofMatches ms', allowExec⟩).result

/-- An interval is kept just if the expression holds of the last match of it. -/
theorem interval_mem_evaluate_iff {e : Expression} {kept : SpanSet} {trace : Trace}
    (h : (e.evaluate ⟨.ofMatches ms, allowExec⟩).result = .ok (kept, trace)) (s : Span) :
    s.interval ∈ kept.intervals ↔ e.AcceptsLast ms s := by
  rw [result_evaluate, Outcome.map_eq_ok_iff] at h
  obtain ⟨⟨kept', steps⟩, h, hkept⟩ := h
  obtain ⟨rfl, -⟩ := Prod.mk.inj hkept
  -- the candidate of an interval is the span of its last match
  have hfind : ∀ t, t ∈ (Registry.ofMatches ms).allSpans.spans ∧ t.interval = s.interval ↔
      ∃ last, (Registry.ofMatches ms).last? s = some last ∧ last.span = t := by
    intro t
    rw [← SpanSet.find?_eq_some_iff, Registry.find?_allSpans, Option.map_eq_some_iff]
  rw [keep_selects h]
  constructor
  · rintro ⟨t, ht, hi, haccepts⟩
    obtain ⟨last, hlast, rfl⟩ := (hfind t).1 ⟨ht, hi⟩
    exact ⟨last, hlast, haccepts⟩
  · rintro ⟨last, hlast, haccepts⟩
    obtain ⟨ht, hi⟩ := (hfind last.span).2 ⟨last, hlast, rfl⟩
    exact ⟨last.span, ht, hi, haccepts⟩

/-- An evaluation that does not fail keeps the intervals whose last matches the expression holds of. -/
theorem intervals?_evaluate_eq_some {e : Expression} {kept : SpanSet}
    (hsucceeds : ¬ ∃ fault, (e.evaluate ⟨.ofMatches ms, allowExec⟩).result = .error fault)
    (h : ∀ s, s.interval ∈ kept.intervals ↔ e.AcceptsLast ms s) :
    Outcome.intervals? (e.evaluate ⟨.ofMatches ms, allowExec⟩).result = some kept.intervals := by
  cases he : (e.evaluate ⟨.ofMatches ms, allowExec⟩).result with
  | error fault => exact absurd ⟨fault, he⟩ hsucceeds
  | ok outcome =>
    obtain ⟨kept', trace⟩ := outcome
    refine congrArg some (SpanSet.intervals_ext fun i => ?_)
    exact (interval_mem_evaluate_iff he ⟨i.1, i.2, []⟩).trans (h ⟨i.1, i.2, []⟩).symm

/-- Two orders give one verdict just if the expression says the same of their last matches. -/
theorem sameVerdict_iff (h : ms.Perm ms') (e : Expression) :
    e.SameVerdict allowExec ms ms' ↔
      (∃ fault, (e.evaluate ⟨.ofMatches ms, allowExec⟩).result = .error fault) ∨
        ∀ s, e.AcceptsLast ms s ↔ e.AcceptsLast ms' s := by
  have hfails := evaluate_fails_perm h e allowExec
  unfold SameVerdict
  cases he : (e.evaluate ⟨.ofMatches ms, allowExec⟩).result with
  | error fault =>
    obtain ⟨fault', he'⟩ := hfails.1 ⟨fault, he⟩
    rw [he']
    exact iff_of_true rfl (.inl ⟨fault, rfl⟩)
  | ok outcome =>
    cases he' : (e.evaluate ⟨.ofMatches ms', allowExec⟩).result with
    | error fault' =>
      obtain ⟨fault, hfault⟩ := hfails.2 ⟨fault', he'⟩
      rw [he] at hfault
      cases hfault
    | ok outcome' =>
      obtain ⟨kept, trace⟩ := outcome
      obtain ⟨kept', trace'⟩ := outcome'
      show some kept.intervals = some kept'.intervals ↔ _
      simp only [Option.some.injEq, reduceCtorEq, exists_false, false_or,
        ← interval_mem_evaluate_iff he, ← interval_mem_evaluate_iff he']
      constructor
      · intro hintervals s
        rw [hintervals]
      · exact fun hs => SpanSet.intervals_ext fun i => hs ⟨i.1, i.2, []⟩

/-- An expression says the same of the last matches of an interval if these agree on the names that
    it tests. -/
theorem accepts_last_congr (h : ms.Perm ms') {e : Expression} {s : Span} {last last' : Match}
    (hagree : ∀ name, e.Tests name → AgreeOn ms ms' name)
    (hlast : (Registry.ofMatches ms).last? s = some last)
    (hlast' : (Registry.ofMatches ms').last? s = some last') :
    e.Accepts ms last.span ↔ e.Accepts ms' last'.span := by
  have hi := (Registry.last?_eq_some hlast).2
  have hi' := (Registry.last?_eq_some hlast').2
  refine accepts_congr fun l hl => Leaf.accepts_congr h (hi.trans hi'.symm) ?_
  intro name hname m hm hsame hbinds
  have hms : m.span.interval = s.interval := (Span.sameInterval_iff.1 hsame).trans hi
  have hknown := hagree name ⟨l, hl, hname⟩ m hm hbinds
  simpa only [KnownAt, Registry.last?_congr _ hms, hlast, hlast', Option.some.injEq,
    exists_eq_left'] using hknown

/-- Two orders give one verdict if their last matches agree on the names that the expression tests. -/
theorem sameVerdict_of_agreeOn (h : ms.Perm ms') {e : Expression}
    (hagree : ∀ name, e.Tests name → AgreeOn ms ms' name) : e.SameVerdict allowExec ms ms' := by
  rw [sameVerdict_iff h]
  right
  intro s
  -- an interval has last matches in both orders or in none
  constructor
  · rintro ⟨last, hlast, haccepts⟩
    obtain ⟨last', hlast'⟩ := Registry.exists_last?_perm h hlast
    exact ⟨last', hlast', (accepts_last_congr h hagree hlast hlast').1 haccepts⟩
  · rintro ⟨last', hlast', haccepts⟩
    obtain ⟨last, hlast⟩ := Registry.exists_last?_perm h.symm hlast'
    exact ⟨last, hlast, (accepts_last_congr h hagree hlast hlast').2 haccepts⟩

end Expression

/-! ## The empty pattern

Anchored, it is a program that goes down to its end at the start of any text, and remembers that place
twice. -/

namespace Regex

/-- The machine of the empty pattern at the start of a text. -/
def emptyMachine : Machine := ⟨3, #[.accept, .save 1 0, .look .textStart 1, .save 0 2]⟩

theorem anchoredRegex_empty : Filter.anchoredRegex "" = .ok ⟨emptyMachine, []⟩ := rfl

/-- The thread at the start of a text passes all instructions of the machine. -/
theorem isSome_searchFrom_emptyMachine (text : Array Char) :
    (emptyMachine.searchFrom text 0).isSome = true := by
  have hstart : (emptyMachine.thread 0).Step emptyMachine.program text ⟨2, 0, [(0, 0)]⟩ := .save rfl
  have hlook : (⟨2, 0, [(0, 0)]⟩ : Thread).Step emptyMachine.program text ⟨1, 0, [(0, 0)]⟩ :=
    .look rfl rfl
  have hstop : (⟨1, 0, [(0, 0)]⟩ : Thread).Step emptyMachine.program text
      ⟨0, 0, [(1, 0), (0, 0)]⟩ := .save rfl
  exact (emptyMachine.isSome_searchFrom_iff text).2
    ⟨0, Nat.zero_le _, _, .head hstart (.head hlook (.single hstop)), rfl⟩

end Regex

namespace Expression

/-! ## Asking for a name -/

/-- Is the name bound, to whatever text? -/
def isBound (name : String) : Expression :=
  .leaf ⟨.metavariableRegex, none, some (.record ⟨name, some "", none, none, none⟩)⟩

/-- Asking for a name tests no other. -/
theorem isBound_tests {name other : String} (h : (isBound name).Tests other) : other = name := by
  obtain ⟨l, hl, -, c, hc, rfl⟩ := h
  obtain rfl := List.mem_singleton.1 hl
  obtain rfl := Operand.record.inj (Option.some.inj hc)
  rfl

/-- The empty pattern matches every text, so the expression asks for the name only. -/
theorem isBound_accepts {name : String} {s : Span} :
    (isBound name).Accepts ms s ↔
      name ∈ s.vars ∧ ∃ m ∈ ms, m.span.SameInterval s ∧ m.binds name = true := by
  have htext : ∀ text, MetavariableCondition.RegexMatches ⟨name, some "", none, none, none⟩ text :=
    fun text => ⟨"", _, rfl, Filter.anchoredRegex_eq_ok_iff.1 Regex.anchoredRegex_empty,
      Regex.isSome_searchFrom_emptyMachine _⟩
  rw [isBound, accepts_leaf]
  simp [Leaf.Accepts, Filter.BoundTo, htext, Match.binds_iff]

/-- Asking for a name never fails. -/
theorem isBound_succeeds (name : String) (env : Surroundings) :
    ¬ ∃ fault, ((isBound name).evaluate env).result = .error fault := by
  rw [← Outcome.fault?_ne_none_iff, not_not, fault?_evaluate_eq_none_iff]
  intro l hl
  obtain rfl := List.mem_singleton.1 hl
  show fault? (Filter.byRegex _ _ _).result = none
  simp [Filter.byRegex, Noted.result_bind, Outcome.fault?_bind_eq_none_iff,
    Regex.anchoredRegex_empty, Filter.retainBound]

/-- Where a match binds the name, the last match has to know it. -/
theorem isBound_acceptsLast {name : String} {m : Match} (hm : m ∈ ms)
    (hbinds : m.binds name = true) :
    (isBound name).AcceptsLast ms m.span ↔ KnownAt ms name m.span := by
  refine exists_congr fun last => and_congr_right fun hlast => ?_
  have hi := (Registry.last?_eq_some hlast).2
  -- that some match binds it is known, so it is the names of the last one that decide
  rw [isBound_accepts]
  exact and_iff_left ⟨m, hm, Span.sameInterval_iff.2 hi.symm, hbinds⟩

/-- Where two orders disagree on a bound name, asking for it tells them apart. -/
theorem agreeOn_of_isBound (h : ms.Perm ms') {name : String}
    (hverdict : (isBound name).SameVerdict allowExec ms ms') : AgreeOn ms ms' name := by
  have haccepts := ((sameVerdict_iff h _).1 hverdict).resolve_left (isBound_succeeds name _)
  intro m hm hbinds
  rw [← isBound_acceptsLast hm hbinds, haccepts, isBound_acceptsLast (h.mem_iff.1 hm) hbinds]

end Expression

/-! ## Two orders -/

/-- Over the same matches in two orders an expression fails on both or on none.  It keeps the same
    intervals just if it says the same of the last matches of each; and whatever names expressions may
    test, all of them do so just if the last matches agree on those names, where they are bound. -/
theorem verdict_perm (h : ms.Perm ms') :
    (∀ (e : Expression) (allowExec : Bool),
      (∃ fault, (e.evaluate ⟨.ofMatches ms, allowExec⟩).result = .error fault) ↔
        ∃ fault, (e.evaluate ⟨.ofMatches ms', allowExec⟩).result = .error fault) ∧
    (∀ (e : Expression) (allowExec : Bool), e.SameVerdict allowExec ms ms' ↔
      (∃ fault, (e.evaluate ⟨.ofMatches ms, allowExec⟩).result = .error fault) ∨
        ∀ s, e.AcceptsLast ms s ↔ e.AcceptsLast ms' s) ∧
    ∀ names : Set String,
      (∀ (e : Expression) (allowExec : Bool), (∀ name, e.Tests name → name ∈ names) →
        e.SameVerdict allowExec ms ms') ↔ ∀ name ∈ names, AgreeOn ms ms' name := by
  refine ⟨?_, ?_, ?_⟩
  · intro e allowExec
    exact Expression.evaluate_fails_perm h e allowExec
  · intro e allowExec
    exact Expression.sameVerdict_iff h e
  · intro names
    constructor
    · intro hverdict name hname
      -- of all expressions it takes only the one that asks for the name
      refine Expression.agreeOn_of_isBound h (hverdict (.isBound name) false fun other ho => ?_)
      rwa [Expression.isBound_tests ho]
    · intro hagree e allowExec htests
      exact Expression.sameVerdict_of_agreeOn h fun name hname => hagree name (htests name hname)

/-- Two matches of one interval that bind the same name to different texts. -/
def twiceBound : List Match :=
  [(Match.bare "p" 0 5).bind "$X" "a", (Match.bare "p" 0 5).bind "$X" "b"]

/-- Every expression says the same of them in both orders. -/
theorem verdict_perm_twiceBound :
    twiceBound.Perm twiceBound.reverse ∧ ∀ (e : Expression) (allowExec : Bool),
      e.SameVerdict allowExec twiceBound twiceBound.reverse := by
  have hperm : twiceBound.Perm twiceBound.reverse := (List.reverse_perm _).symm
  refine ⟨hperm, fun e allowExec => ?_⟩
  refine ((verdict_perm hperm).2.2 Set.univ).2 ?_ e allowExec fun _ _ => Set.mem_univ _
  intro name _
  have hvars : ∀ m ∈ twiceBound, ∀ k ∈ twiceBound, m.span.vars = k.span.vars := by decide
  exact agreeOn_of_vars hperm fun m hm k hk _ => by rw [hvars m hm k hk]

/-- Two matches of one interval that bind different names. -/
def eitherBound : List Match :=
  [(Match.bare "p" 0 5).bind "$X" "a", (Match.bare "p" 0 5).bind "$Y" "b"]

/-- Whether the interval survives depends on which of the two matches comes last. -/
theorem verdict_of_last :
    eitherBound.Perm eitherBound.reverse ∧
      Outcome.intervals?
        ((Expression.isBound "$X").evaluate ⟨.ofMatches eitherBound, false⟩).result = some [] ∧
      Outcome.intervals?
        ((Expression.isBound "$X").evaluate ⟨.ofMatches eitherBound.reverse, false⟩).result =
        some [(0, 5)] := by
  have hinterval : ∀ m ∈ eitherBound, m.span.interval = (0, 5) := by decide
  refine ⟨(List.reverse_perm _).symm, ?_, ?_⟩
  · show _ = some SpanSet.empty.intervals
    refine Expression.intervals?_evaluate_eq_some (Expression.isBound_succeeds _ _) fun s =>
      iff_of_false List.not_mem_nil ?_
    rintro ⟨last, hlast, haccepts⟩
    -- the last match of the interval knows the other name only
    have hi := (Registry.last?_eq_some hlast).2.symm.trans
      (hinterval last (Registry.last?_eq_some hlast).1)
    obtain rfl : (Match.bare "p" 0 5).bind "$Y" "b" = last :=
      Option.some.inj ((Registry.last?_congr _ (t := ⟨0, 5, []⟩) hi).symm.trans hlast)
    exact absurd (Expression.isBound_accepts.1 haccepts).1 (by decide)
  · show _ = some (SpanSet.ofList [⟨0, 5, []⟩]).intervals
    refine Expression.intervals?_evaluate_eq_some (Expression.isBound_succeeds _ _) fun s => ?_
    constructor
    · intro hi
      have hlast := Registry.last?_congr (.ofMatches eitherBound.reverse) (t := ⟨0, 5, []⟩)
        (List.mem_singleton.1 hi)
      refine ⟨_, hlast.trans rfl, Expression.isBound_accepts.2 ⟨?_, ?_⟩⟩
      · decide
      · exact ⟨(Match.bare "p" 0 5).bind "$X" "a", by decide, by decide, by decide⟩
    · rintro ⟨last, hlast, -⟩
      obtain ⟨hmem, hi⟩ := Registry.last?_eq_some hlast
      exact List.mem_singleton.2 (hi.symm.trans (hinterval last (List.mem_reverse.1 hmem)))

end RuleSieve
