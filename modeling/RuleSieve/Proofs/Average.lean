/-
  The average time of an evaluation.

  Reports that are merged in 64 bits know of each rule the times and the evaluations of all of them added
  up (`Report.mergedInWords_timing`).  The average is taken with the number of evaluations in 32 bits,
  although the number itself has 64: where it has room there, or the total is less than what is left of
  it, the average is the one that is meant (`averagesRightly_iff`), and where nothing is left of it there
  is no average at all (`average?_eq_none_iff`), and no table either (`table?_eq_none_iff`).
-/
import RuleSieve.Proofs.Room

namespace RuleSieve

namespace Timing

/-! ## The average that is meant -/

/-- The time of all evaluations over their number, in whole nanoseconds; zero if there was none. -/
def mean (t : Timing) : Nat := if t.evaluations = 0 then 0 else t.total / t.evaluations

/-- There is an average, and it is the one that is meant. -/
def AveragesRightly (t : Timing) : Prop := t.average? = some t.mean

variable {t : Timing}

/-- A divisor of at most half of the right one makes a difference as soon as the total reaches it. -/
theorem div_eq_div_iff {a m n : Nat} (hm : 0 < m) (h : 2 * m ≤ n) : a / m = a / n ↔ a < m := by
  constructor
  · intro heq
    by_contra hle
    have hone : 1 ≤ a / m := (Nat.one_le_div_iff hm).2 (Nat.not_lt.1 hle)
    have hhigh : a < (a / m + 1) * m := (Nat.div_lt_iff_lt_mul hm).1 (Nat.lt_succ_self _)
    -- the quotient is at least one, so that twice the divisor makes it smaller
    have hless : a / n < a / m := by
      rw [Nat.div_lt_iff_lt_mul (by omega)]
      calc a < (a / m + 1) * m := hhigh
        _ ≤ (a / m + a / m) * m := Nat.mul_le_mul_right m (Nat.add_le_add_left hone _)
        _ = a / m * (2 * m) := by rw [← Nat.two_mul, Nat.mul_comm 2, Nat.mul_assoc]
        _ ≤ a / m * n := Nat.mul_le_mul_left _ h
    exact Nat.ne_of_gt hless heq
  · intro hlt
    rw [Nat.div_eq_of_lt hlt, Nat.div_eq_of_lt (by omega)]

/-- There is no average just if there were evaluations and nothing is left of their number. -/
theorem average?_eq_none_iff :
    t.average? = none ↔ t.evaluations ≠ 0 ∧ twoTo 32 ∣ t.evaluations := by
  rw [average?, divisor, Nat.dvd_iff_mod_eq_zero]
  by_cases hzero : t.evaluations = 0
  · simp [hzero]
  · by_cases hleft : t.evaluations % twoTo 32 = 0 <;> simp [hzero, hleft]

/-- The average is the one that is meant just if the number of evaluations has room in 32 bits, or what
    is left of it there is more than the total. -/
theorem averagesRightly_iff :
    t.AveragesRightly ↔ t.evaluations < twoTo 32 ∨ t.total < t.evaluations % twoTo 32 := by
  have hpos := twoTo_pos 32
  by_cases hroom : t.evaluations < twoTo 32
  · have hright : t.AveragesRightly := by
      rw [AveragesRightly, average?, mean, divisor, Nat.mod_eq_of_lt hroom]
      by_cases hzero : t.evaluations = 0 <;> simp [hzero]
    exact iff_of_true hright (.inl hroom)
  · have hsome : t.evaluations ≠ 0 := by omega
    rw [AveragesRightly, average?, mean, divisor, if_neg hsome, if_neg hsome, or_iff_right hroom]
    by_cases hnone : t.evaluations % twoTo 32 = 0
    · simp [hnone]
    · -- the number is at least `twoTo 32` more than what is left of it
      have hhalf : 2 * (t.evaluations % twoTo 32) ≤ t.evaluations := by
        have hleft : t.evaluations % twoTo 32 < twoTo 32 := Nat.mod_lt _ hpos
        have hless := Nat.mod_le (t.evaluations - twoTo 32) (twoTo 32)
        rw [← Nat.mod_eq_sub_mod (Nat.not_lt.1 hroom)] at hless
        omega
      rw [if_neg hnone, Option.some.injEq, div_eq_div_iff (Nat.pos_of_ne_zero hnone) hhalf]

/-! ## The table -/

theorem mapM_eq_none_iff {α β : Type} {f : α → Option β} {xs : List α} :
    xs.mapM f = none ↔ ∃ x ∈ xs, f x = none := by
  induction xs with
  | nil => simp
  | cons x xs ih =>
    rw [List.mapM_cons, List.exists_mem_cons_iff, ← ih]
    cases f x <;> cases xs.mapM f <;> simp

/-- There is no table just if one of the timings has no average. -/
theorem table?_eq_none_iff {timings : Dict Timing} :
    table? timings = none ↔ ∃ entry ∈ timings, entry.2.average? = none := by
  have hlines : (slowestFirst timings).mapM line? = none ↔
      ∃ entry ∈ timings, entry.2.average? = none := by
    simp only [mapM_eq_none_iff, slowestFirst, List.mem_mergeSort, List.mem_map, line?,
      Option.map_eq_none_iff, exists_exists_and_eq_and]
  rw [table?, ← hlines]
  split
  · next hempty =>
    rw [List.isEmpty_iff.1 hempty]
    simp [slowestFirst]
  · cases (slowestFirst timings).mapM line? <;> simp

end Timing

/-! ## Merged timings -/

namespace Report

/-- What reports that were merged in 64 bits know of a rule: the times added up, and what is left of the
    evaluations added up. -/
theorem mergedInWords_timing {checked : Bool} {parts : List Report} {merged : Report}
    (hparts : ∀ part ∈ parts, part.Ordered) (hmerged : mergedInWords checked parts = some merged)
    {id : String} {t : Timing} (h : merged.timings.find? id = some t) :
    t.total = (parts.map (·.counted (·.total) id)).sum ∧
      t.evaluations = (parts.map (·.counted (·.evaluations) id)).sum % Word.count := by
  rw [mergedInWords_eq hparts, Option.ite_none_right_eq_some] at hmerged
  obtain ⟨-, hwords⟩ := hmerged
  obtain rfl := Option.some.inj hwords
  rw [inWords, Timing.find?_allInWords, Option.map_eq_some_iff] at h
  obtain ⟨sum, hsum, rfl⟩ := h
  rw [← counted_foldl_merge hparts (fun _ _ => rfl), ← counted_foldl_merge hparts (fun _ _ => rfl),
    counted, counted, hsum]
  exact ⟨rfl, rfl⟩

/-- Merged timings are in the order of their rules. -/
theorem mergedInWords_ordered {checked : Bool} {parts : List Report} {merged : Report}
    (hparts : ∀ part ∈ parts, part.Ordered) (hmerged : mergedInWords checked parts = some merged) :
    merged.Ordered := by
  rw [mergedInWords_eq hparts, Option.ite_none_right_eq_some] at hmerged
  obtain ⟨-, hwords⟩ := hmerged
  obtain rfl := Option.some.inj hwords
  exact (ordered_empty.foldl_merge parts).mapValues Timing.inWords

/-- Merging reports in 64 bits comes to something just if there is room for the times added up, and if
    additions are checked, for the counts added up as well.  The merged reports then know of every rule
    the times added up and what is left of the evaluations.  Its average is the total over the
    evaluations, and zero if there was none, just if their number has room in 32 bits, or what is left of
    it there is more than the total; it is missing if there were evaluations and nothing is left of their
    number in 32 bits, and then the table is missing too. -/
theorem averages_merged_iff (checked : Bool) (parts : List Report)
    (hparts : ∀ part ∈ parts, part.Ordered) :
    ((mergedInWords checked parts).isSome = true ↔
      Word.HasRoom checked (parts.map (·.processed)).sum ∧
      Word.HasRoom checked (parts.map (·.skipped)).sum ∧
      ∀ id, (parts.map (·.counted (·.total) id)).sum < Timing.timeLimit ∧
        Word.HasRoom checked (parts.map (·.counted (·.evaluations) id)).sum ∧
        Word.HasRoom checked (parts.map (·.counted (·.findings) id)).sum) ∧
    ∀ merged, mergedInWords checked parts = some merged →
      (∀ id t, merged.timings.find? id = some t →
        t.total = (parts.map (·.counted (·.total) id)).sum ∧
        t.evaluations = (parts.map (·.counted (·.evaluations) id)).sum % Word.count ∧
        (t.AveragesRightly ↔ t.evaluations < twoTo 32 ∨ t.total < t.evaluations % twoTo 32) ∧
        (t.average? = none ↔ t.evaluations ≠ 0 ∧ twoTo 32 ∣ t.evaluations)) ∧
      (Timing.table? merged.timings = none ↔
        ∃ id t, merged.timings.find? id = some t ∧ t.evaluations ≠ 0 ∧ twoTo 32 ∣ t.evaluations) := by
  refine ⟨?_, fun merged hmerged => ⟨fun id t h => ?_, ?_⟩⟩
  · rw [mergedInWords_eq hparts, ← fits_merged_iff hparts]
    simp
  · obtain ⟨htotal, hevaluations⟩ := mergedInWords_timing hparts hmerged h
    exact ⟨htotal, hevaluations, Timing.averagesRightly_iff, Timing.average?_eq_none_iff⟩
  · simp only [Timing.table?_eq_none_iff, Timing.average?_eq_none_iff, Prod.exists,
      Dict.Sorted.mem_iff (mergedInWords_ordered hparts hmerged)]

/-- Two reports of a rule that took a microsecond each. -/
def twoReports (m n : Nat) : List Report :=
  [{ timings := [("r", ⟨"r", 1000, m, 0⟩)] }, { timings := [("r", ⟨"r", 1000, n, 0⟩)] }]

/-- The two reports together. -/
def bothReports (evaluations : Nat) : Report :=
  { timings := [("r", ⟨"r", 2000, evaluations, 0⟩)] }

theorem ordered_twoReports (m n : Nat) : ∀ part ∈ twoReports m n, part.Ordered := by
  simp [twoReports, Ordered, Dict.Sorted]

theorem foldl_merge_twoReports (m n : Nat) :
    (twoReports m n).foldl merge empty = bothReports (m + n) := by
  simp [twoReports, bothReports, merge, empty, Timing.mergeAll, Dict.alter, Timing.add]

/-- The two reports can be merged in 64 bits if there is room for the evaluations of both. -/
theorem mergedInWords_twoReports {m n : Nat} (h : m + n < Word.count) (checked : Bool) :
    mergedInWords checked (twoReports m n) = some (bothReports (m + n)) := by
  have hfits : (bothReports (m + n)).Fits true := by
    refine ⟨Word.hasRoom_zero, Word.hasRoom_zero, fun entry hentry => ?_⟩
    rw [List.mem_singleton.1 hentry]
    exact ⟨(by decide : 2000 < Timing.timeLimit), fun _ => h, Word.hasRoom_zero⟩
  rw [mergedInWords_eq (ordered_twoReports m n), foldl_merge_twoReports, if_pos hfits.of_checked,
    inWords_of_fits hfits]

/-- With one evaluation more than 2³¹ in all, the number still has room in 32 bits.  For 2⁶⁴ evaluations
    there is no room: nothing comes of them if additions are checked. -/
theorem averages_merged_iff_room :
    ((∀ part ∈ twoReports 2147483648 1, part.Ordered) ∧
      mergedInWords true (twoReports 2147483648 1) = some (bothReports 2147483649) ∧
      (bothReports 2147483649).timings.find? "r" = some ⟨"r", 2000, 2147483649, 0⟩ ∧
      (⟨"r", 2000, 2147483649, 0⟩ : Timing).AveragesRightly) ∧
    (mergedInWords true (twoReports Word.half Word.half)).isSome = false := by
  have hmerged : mergedInWords true (twoReports 2147483648 1) = some (bothReports 2147483649) :=
    mergedInWords_twoReports (by decide) true
  have hfound : (bothReports 2147483649).timings.find? "r" = some ⟨"r", 2000, 2147483649, 0⟩ := rfl
  obtain ⟨-, hknown⟩ := averages_merged_iff true _ (ordered_twoReports 2147483648 1)
  obtain ⟨-, -, hright, -⟩ := (hknown _ hmerged).1 "r" _ hfound
  obtain ⟨hsome, -⟩ := averages_merged_iff true _ (ordered_twoReports Word.half Word.half)
  refine ⟨⟨ordered_twoReports 2147483648 1, hmerged, hfound, hright.2 (.inl (by decide))⟩, ?_⟩
  refine Bool.eq_false_iff.2 fun h => ?_
  have hroom := ((hsome.1 h).2.2 "r").2.1 rfl
  exact absurd hroom (by decide)

-- if additions are not checked, nothing is left of 2⁶⁴ evaluations
example : (mergedInWords false (twoReports Word.half Word.half)).map (·.timings) =
    some [("r", ⟨"r", 2000, 0, 0⟩)] := rfl

/-- With 2³² + 1 evaluations the average of 2000 nanoseconds is not 0 but 2000, and with 2³² there is
    neither an average nor a table. -/
theorem not_averagesRightly_twoReports :
    (mergedInWords true (twoReports 2147483648 2147483649) = some (bothReports 4294967297) ∧
      ∃ t, (bothReports 4294967297).timings.find? "r" = some t ∧ t.mean = 0 ∧
        t.average? = some 2000 ∧ ¬ t.AveragesRightly) ∧
    (mergedInWords true (twoReports 2147483648 2147483648) = some (bothReports 4294967296) ∧
      (∃ t, (bothReports 4294967296).timings.find? "r" = some t ∧ t.mean = 0 ∧
        t.average? = none ∧ ¬ t.AveragesRightly) ∧
      Timing.table? (bothReports 4294967296).timings = none) := by
  have hnone : (⟨"r", 2000, 4294967296, 0⟩ : Timing).average? = none := by decide
  refine ⟨⟨mergedInWords_twoReports (by decide) true, _, rfl, by decide, by decide, ?_⟩,
    mergedInWords_twoReports (by decide) true, ⟨_, rfl, by decide, hnone, ?_⟩, ?_⟩
  · rw [Timing.averagesRightly_iff]
    decide
  · rw [Timing.averagesRightly_iff]
    decide
  · exact Timing.table?_eq_none_iff.2 ⟨_, List.mem_singleton_self _, hnone⟩

end Report

end RuleSieve
