/-
  When a predicate fails as a filter, and which intervals it keeps.

  A predicate is asked at every match of a candidate, and each answer is one of three kinds: true, no
  truth value (`Unclear`), or anything else, which counts as false.  An error of the predicate is of
  the third kind, so no error ever ends the filter.

  The filter fails just if some candidate has an unclear answer, whether or not another match of the
  interval has said true before, and otherwise it keeps the candidates with a true one
  (`byPredicate_judges`).  Both are said interval by interval, of the set of answers there.  So
  neither the order of the matches nor the other candidates have a say in what happens to one of them.
-/
import RuleSieve.Proofs.Narrowing

namespace RuleSieve

open Outcome (fault?)

/-! ## Bound texts -/

/-- What the names of the match are bound to, without the places. -/
def Match.texts (m : Match) : List (String × String) :=
  m.bindings.map fun entry => (entry.1, entry.2.content)

/-- The matches of the interval in one list bind their names as those in the other one do. -/
def SameTextsAt (i : Nat × Nat) (ms ms' : List Match) : Prop :=
  ∀ texts, (∃ m ∈ ms, m.span.interval = i ∧ m.texts = texts) ↔
    ∃ m ∈ ms', m.span.interval = i ∧ m.texts = texts

/-- What matters of a match is what its names are bound to. -/
theorem SameTextsAt.exists_iff {i : Nat × Nat} {ms ms' : List Match} {p : Match → Prop}
    (h : SameTextsAt i ms ms') (hp : ∀ {m m' : Match}, m.texts = m'.texts → p m → p m') :
    (∃ m ∈ ms, m.span.interval = i ∧ p m) ↔ ∃ m ∈ ms', m.span.interval = i ∧ p m := by
  constructor
  · rintro ⟨m, hm, hi, hpm⟩
    obtain ⟨m', hm', hi', htexts⟩ := (h m.texts).1 ⟨m, hm, hi, rfl⟩
    exact ⟨m', hm', hi', hp htexts.symm hpm⟩
  · rintro ⟨m', hm', hi', hpm'⟩
    obtain ⟨m, hm, hi, htexts⟩ := (h m'.texts).2 ⟨m', hm', hi', rfl⟩
    exact ⟨m, hm, hi, hp htexts.symm hpm'⟩

namespace Filter

variable {source : String} {candidates : SpanSet} {ms ms' : List Match} {i : Nat × Nat}

/-! ## One match -/

/-- At the match the predicate has a value that is no truth value. -/
def Unclear (source : String) (m : Match) : Prop := ∃ fault, NotBoolean source m fault

/-- The fault of a predicate for a match is that its value there is no truth value. -/
theorem whereFault?_eq_some_iff {m : Match} {fault : Fault} :
    whereFault? source m = some fault ↔ NotBoolean source m fault := by
  constructor
  · exact notBoolean_of_whereFault?
  · rintro ⟨predicate, value, hparse, hvalue, hbool, rfl⟩
    rw [whereFault?, hparse]
    show fault? (whereHolds predicate m).result = _
    rw [whereHolds, hvalue]
    cases value with
    | bool b => exact absurd rfl (hbool b)
    | _ => rfl

/-- A predicate is at no fault for a match just if its value there is clear. -/
theorem whereFault?_eq_none_iff {m : Match} :
    whereFault? source m = none ↔ ¬ Unclear source m := by
  simp only [Unclear, ← whereFault?_eq_some_iff, ← Option.isSome_iff_exists,
    Option.not_isSome_iff_eq_none]

/-- The scope of a match, made from what its names are bound to. -/
def scopeOf (texts : List (String × String)) : Predicate.Scope :=
  let values := texts.map fun entry => (entry.1, Predicate.Value.str entry.2)
  Dict.insert "vars" (.map values) values

/-- A predicate reads no more of a match than what its names are bound to. -/
theorem whereScope_eq (m : Match) : whereScope m = scopeOf m.texts := by
  simp only [whereScope, scopeOf, Match.texts, List.map_map, Function.comp_def]

/-- Whether a value is clear depends on the texts that the match binds. -/
theorem Unclear.congr {m m' : Match} (h : m.texts = m'.texts) (hm : Unclear source m) :
    Unclear source m' := by
  obtain ⟨fault, predicate, value, hparse, hvalue, hrest⟩ := hm
  rw [whereScope_eq, h, ← whereScope_eq] at hvalue
  exact ⟨fault, predicate, value, hparse, hvalue, hrest⟩

/-- Whether a predicate is true depends on the texts that the match binds. -/
theorem WhereTrue.congr {m m' : Match} (h : m.texts = m'.texts) (hm : WhereTrue source m) :
    WhereTrue source m' := by
  obtain ⟨predicate, hparse, hvalue⟩ := hm
  rw [whereScope_eq, h, ← whereScope_eq] at hvalue
  exact ⟨predicate, hparse, hvalue⟩

/-! ## One interval -/

/-- At some match of the interval the predicate has a value that is no truth value. -/
def UnclearAt (source : String) (ms : List Match) (i : Nat × Nat) : Prop :=
  ∃ m ∈ ms, m.span.interval = i ∧ Unclear source m

/-- At some match of the interval the predicate is true. -/
def TrueAt (source : String) (ms : List Match) (i : Nat × Nat) : Prop :=
  ∃ m ∈ ms, m.span.interval = i ∧ WhereTrue source m

/-- At an interval, clearness depends on the texts of the matches there. -/
theorem unclearAt_congr (h : SameTextsAt i ms ms') : UnclearAt source ms i ↔ UnclearAt source ms' i :=
  h.exists_iff Unclear.congr

/-- At an interval, truth depends on the texts of the matches there. -/
theorem trueAt_congr (h : SameTextsAt i ms ms') : TrueAt source ms i ↔ TrueAt source ms' i :=
  h.exists_iff WhereTrue.congr

/-! ## All candidates -/

/-- The predicate fails as a filter. -/
def Fails (source : String) (candidates : SpanSet) (ms : List Match) : Prop :=
  ∃ fault, (byPredicate candidates ms source).result = .error fault

/-- The fault is that of the first match of a candidate with an unclear answer. -/
theorem byPredicate_eq_error_iff {fault : Fault} :
    (byPredicate candidates ms source).result = .error fault ↔ ∃ before m after,
      ms = before ++ m :: after ∧ candidates.contains m.span = true ∧ NotBoolean source m fault ∧
      ∀ k ∈ before, candidates.contains k.span = true → ¬ Unclear source k := by
  rw [← Outcome.fault?_eq_some_iff, fault?_byPredicate, List.findSome?_eq_some_iff]
  -- a match of no candidate is passed over
  have hsome : ∀ m : Match, (if candidates.contains m.span then whereFault? source m else none) =
      some fault ↔ candidates.contains m.span = true ∧ NotBoolean source m fault := by
    intro m
    rw [← whereFault?_eq_some_iff]
    split <;> simp_all
  have hnone : ∀ k : Match, (if candidates.contains k.span then whereFault? source k else none) =
      none ↔ (candidates.contains k.span = true → ¬ Unclear source k) := by
    intro k
    rw [← whereFault?_eq_none_iff]
    split <;> simp_all
  simp only [hsome, hnone, and_assoc]

/-- The filter fails just if some candidate has an unclear answer. -/
theorem fails_iff : Fails source candidates ms ↔ ∃ i ∈ candidates.intervals, UnclearAt source ms i := by
  rw [Fails, ← Outcome.fault?_ne_none_iff, fault?_byPredicate, ne_eq, List.findSome?_eq_none_iff]
  push Not
  constructor
  · rintro ⟨m, hm, hfault⟩
    split at hfault
    · next hin =>
      rw [ne_eq, whereFault?_eq_none_iff, not_not] at hfault
      exact ⟨m.span.interval, SpanSet.contains_iff.1 hin, m, hm, rfl, hfault⟩
    · exact absurd rfl hfault
  · rintro ⟨i, hi, m, hm, rfl, hunclear⟩
    refine ⟨m, hm, ?_⟩
    rw [if_pos (SpanSet.contains_iff.2 hi), ne_eq, whereFault?_eq_none_iff, not_not]
    exact hunclear

/-- What is kept are the candidates with a true answer. -/
theorem mem_intervals_byPredicate {kept : SpanSet}
    (h : (byPredicate candidates ms source).result = .ok kept) :
    i ∈ kept.intervals ↔ i ∈ candidates.intervals ∧ TrueAt source ms i := by
  rw [byPredicate_selects h i, SpanSet.mem_intervals]
  constructor
  · rintro ⟨s, hs, rfl, m, hm, hsame, htrue⟩
    exact ⟨⟨s, hs, rfl⟩, m, hm, Span.sameInterval_iff.1 hsame, htrue⟩
  · rintro ⟨⟨s, hs, rfl⟩, m, hm, hi, htrue⟩
    exact ⟨s, hs, rfl, m, hm, Span.sameInterval_iff.2 hi, htrue⟩

/-- A predicate that cannot be read keeps nothing and is at no fault. -/
theorem byPredicate_of_parse_error {problem : Predicate.Error}
    (h : Predicate.parse source = .error problem) :
    (byPredicate candidates ms source).result = .ok .empty := by
  rw [byPredicate, h]

/-- Whether the filter fails does not depend on the order of the matches. -/
theorem fails_perm (h : ms.Perm ms') : Fails source candidates ms ↔ Fails source candidates ms' := by
  simp only [fails_iff, UnclearAt, h.mem_iff]

/-- More candidates make a filter fail that fails already. -/
theorem Fails.mono {larger : SpanSet} (hsub : larger.Covers candidates)
    (h : Fails source candidates ms) : Fails source larger ms := by
  rw [fails_iff] at *
  obtain ⟨i, hi, hunclear⟩ := h
  obtain ⟨s, hs, rfl⟩ := SpanSet.mem_intervals.1 hi
  have hin := hsub s (SpanSet.contains_iff.2 hi)
  exact ⟨s.interval, SpanSet.contains_iff.1 hin, hunclear⟩

/-- As a filter, a predicate fails just if at some match of a candidate it has a value that is no truth
    value, and then with the fault of the first such match, which is a schema violation.  Otherwise it
    keeps the candidates with a match at which it is true, and none if the source is no predicate.  The
    order of the matches has no part in whether it fails; where it fails over some candidates, it fails
    over more of them; and what it makes of an interval depends on nothing but what the matches of that
    interval bind their names to. -/
theorem byPredicate_judges (source : String) (candidates : SpanSet) (ms : List Match) :
    (Fails source candidates ms ↔ ∃ i ∈ candidates.intervals, UnclearAt source ms i) ∧
    (∀ fault, (byPredicate candidates ms source).result = .error fault ↔ ∃ before m after,
      ms = before ++ m :: after ∧ candidates.contains m.span = true ∧ NotBoolean source m fault ∧
      ∀ k ∈ before, candidates.contains k.span = true → ¬ Unclear source k) ∧
    (∀ fault, (byPredicate candidates ms source).result = .error fault →
      fault.kind = .schemaViolation) ∧
    (∀ kept, (byPredicate candidates ms source).result = .ok kept →
      ∀ i, i ∈ kept.intervals ↔ i ∈ candidates.intervals ∧ TrueAt source ms i) ∧
    (∀ problem, Predicate.parse source = .error problem →
      (byPredicate candidates ms source).result = .ok .empty) ∧
    (∀ ms', ms.Perm ms' → (Fails source candidates ms ↔ Fails source candidates ms')) ∧
    (∀ larger : SpanSet, larger.Covers candidates → Fails source candidates ms →
      Fails source larger ms) ∧
    ∀ ms' i, SameTextsAt i ms ms' →
      (UnclearAt source ms i ↔ UnclearAt source ms' i) ∧
      (TrueAt source ms i ↔ TrueAt source ms' i) ∧
      ∀ candidates' kept kept', i ∈ candidates.intervals → i ∈ candidates'.intervals →
        (byPredicate candidates ms source).result = .ok kept →
        (byPredicate candidates' ms' source).result = .ok kept' →
        (i ∈ kept.intervals ↔ i ∈ kept'.intervals) := by
  refine ⟨fails_iff, fun fault => byPredicate_eq_error_iff, ?_, ?_, ?_, ?_, ?_, ?_⟩
  · intro fault h
    obtain ⟨_, _, _, -, -, ⟨_, _, -, -, -, rfl⟩, -⟩ := byPredicate_eq_error_iff.1 h
    rfl
  · intro kept h i
    exact mem_intervals_byPredicate h
  · intro problem h
    exact byPredicate_of_parse_error h
  · intro ms' h
    exact fails_perm h
  · intro larger hsub h
    exact h.mono hsub
  · intro ms' i htexts
    refine ⟨unclearAt_congr htexts, trueAt_congr htexts, ?_⟩
    intro candidates' kept kept' hi hi' h h'
    rw [mem_intervals_byPredicate h, mem_intervals_byPredicate h', and_iff_right hi,
      and_iff_right hi', trueAt_congr htexts]

/-- Two matches of one interval that bind a name to different texts, and one that does not bind it. -/
def sharedInterval : List Match :=
  [(Match.bare "p" 0 5).bind "$X" "a", (Match.bare "q" 0 5).bind "$X" "b",
    (Match.bare "p" 8 9).bind "$Y" "a"]

/-- The same texts at that interval in other places, and nothing else. -/
def sharedElsewhere : List Match :=
  [(Match.bare "r" 0 5).bind "$X" "b", (Match.bare "r" 0 5).bind "$X" "a"]

theorem sameTextsAt_shared : SameTextsAt (0, 5) sharedInterval sharedElsewhere := by
  intro texts
  simp [sharedInterval, sharedElsewhere, Match.texts, Match.bare, Match.ofBindings, Match.bind,
    Span.interval, Dict.insert, Dict.alter, Binding.ofText, or_comm]

/-- A comparison of texts, as it is read. -/
theorem parse_equal : Predicate.parse "$X == 'a'" =
    .ok ⟨"$X == 'a'", .compare (.name "$X") [(.equal, .literal (.str "a"))]⟩ := by
  have htrim : Text.trim "$X == 'a'".toList =
      ['$', 'X', ' ', '=', '=', ' ', '\'', 'a', '\''] := by decide +kernel
  have hlexemes : Predicate.lexemes ['$', 'X', ' ', '=', '=', ' ', '\'', 'a', '\''] =
      .ok [⟨0, ['$', 'X'], .ident "$X"⟩, ⟨3, ['=', '='], .equal⟩,
        ⟨6, ['\'', 'a', '\''], .str "a"⟩] := rfl
  have hderives : Predicate.Derives .comparison [.ident "$X", .equal, .str "a"] _ 0 :=
    .compared .equal .name (.literal rfl)
  exact Predicate.parse_of_derives htrim hlexemes hderives.ofComparison (by decide)

/-- The same comparison, with a text that is no truth value where it does not hold. -/
theorem parse_equal_or_text : Predicate.parse "$X == 'a' or $X" =
    .ok ⟨"$X == 'a' or $X",
      .or (.compare (.name "$X") [(.equal, .literal (.str "a"))]) (.name "$X")⟩ := by
  have htrim : Text.trim "$X == 'a' or $X".toList =
      ['$', 'X', ' ', '=', '=', ' ', '\'', 'a', '\'', ' ', 'o', 'r', ' ', '$', 'X'] := by
    decide +kernel
  have hlexemes : Predicate.lexemes
      ['$', 'X', ' ', '=', '=', ' ', '\'', 'a', '\'', ' ', 'o', 'r', ' ', '$', 'X'] =
      .ok [⟨0, ['$', 'X'], .ident "$X"⟩, ⟨3, ['=', '='], .equal⟩, ⟨6, ['\'', 'a', '\''], .str "a"⟩,
        ⟨10, ['o', 'r'], .or⟩, ⟨13, ['$', 'X'], .ident "$X"⟩] := rfl
  have hderives : Predicate.Derives .whole [.ident "$X", .equal, .str "a", .or, .ident "$X"] _ 2 :=
    .either (.compared .equal .name (.literal rfl)) (.sum (.summed (.ofPrimary .name)))
  exact Predicate.parse_of_derives htrim hlexemes hderives (by decide)

/-- One true answer is enough, wherever the texts come from, and a name without a binding makes none;
    but an unclear answer at the other match of the interval is a fault, in any order. -/
theorem byPredicate_judges_shared :
    (∃ kept, (byPredicate (.ofList (sharedInterval.map (·.span))) sharedInterval
        "$X == 'a'").result = .ok kept ∧ kept.intervals = [(0, 5)] ∧
      TrueAt "$X == 'a'" sharedInterval (0, 5) ∧ TrueAt "$X == 'a'" sharedElsewhere (0, 5) ∧
      ¬ TrueAt "$X == 'a'" sharedInterval (8, 9)) ∧
    Fails "$X == 'a' or $X" (.ofList [⟨0, 5, []⟩]) sharedInterval ∧
    Fails "$X == 'a' or $X" (.ofList (sharedInterval.map (·.span))) sharedInterval ∧
    Fails "$X == 'a' or $X" (.ofList [⟨0, 5, []⟩]) sharedInterval.reverse := by
  have hkept : (byPredicate (.ofList (sharedInterval.map (·.span))) sharedInterval
      "$X == 'a'").result.toOption.map SpanSet.intervals = some [(0, 5)] := by
    rw [byPredicate_of_parse parse_equal]
    decide +kernel
  have hfails : Fails "$X == 'a' or $X" (.ofList [⟨0, 5, []⟩]) sharedInterval := by
    rw [Fails, ← Outcome.fault?_ne_none_iff, ← Option.isSome_iff_ne_none,
      byPredicate_of_parse parse_equal_or_text]
    decide +kernel
  have hcovers : (SpanSet.ofList (sharedInterval.map (·.span))).Covers (.ofList [⟨0, 5, []⟩]) := by
    intro s hs
    obtain ⟨t, ht, hi⟩ := SpanSet.mem_intervals_ofList.1 (SpanSet.contains_iff.1 hs)
    obtain rfl := List.mem_singleton.1 ht
    rw [SpanSet.contains_iff, ← hi]
    decide
  obtain ⟨-, -, -, hjudges, -, -, -, htexts⟩ := byPredicate_judges "$X == 'a'"
    (.ofList (sharedInterval.map (·.span))) sharedInterval
  obtain ⟨-, -, -, -, -, hperm, hmono, -⟩ := byPredicate_judges "$X == 'a' or $X"
    (.ofList [⟨0, 5, []⟩]) sharedInterval
  refine ⟨?_, hfails, hmono _ hcovers hfails, (hperm _ (List.reverse_perm _).symm).1 hfails⟩
  cases h : (byPredicate (.ofList (sharedInterval.map (·.span))) sharedInterval "$X == 'a'").result with
  | error fault =>
    rw [h] at hkept
    cases hkept
  | ok kept =>
    rw [h] at hkept
    have hintervals : kept.intervals = [(0, 5)] := Option.some.inj hkept
    have hall := hjudges kept h
    rw [hintervals] at hall
    have htrue : TrueAt "$X == 'a'" sharedInterval (0, 5) := ((hall (0, 5)).1 (by decide)).2
    have htrue' := (htexts sharedElsewhere (0, 5) sameTextsAt_shared).2.1.1 htrue
    refine ⟨kept, rfl, hintervals, htrue, htrue', fun hother => ?_⟩
    exact absurd ((hall (8, 9)).2 ⟨by decide, hother⟩) (by decide)

end Filter

end RuleSieve
