/-
  Grouping matches by pattern loses none of them.

  The matches of a pattern are those of the input with its id, in input order (`matchesFor_ofMatches`).
  All groups together are the input in another order (`allMatches_eq`): by pattern
  (`allMatches_ordered`), and within a pattern as they came (`filter_allMatches`).
-/
import RuleSieve.Match
import RuleSieve.Proofs.GroupBy

namespace RuleSieve

/-! ## Registries -/

namespace Registry

theorem groups_ofMatches (ms : List Match) :
    (ofMatches ms).groups = Dict.groupBy (·.patternId) ms := rfl

theorem groups_sorted (ms : List Match) : (ofMatches ms).groups.Sorted :=
  Dict.sorted_groupBy _ ms

/-- The group of a pattern are the matches that bear its id, if there are any. -/
theorem find?_groups (ms : List Match) (id : String) :
    (ofMatches ms).groups.find? id =
      if ms.filter (·.patternId == id) = [] then none
      else some (ms.filter (·.patternId == id)) :=
  Dict.find?_groupBy _ ms id

/-- The matches of a pattern are those that bear its id, in the order in which they came. -/
theorem matchesFor_ofMatches (ms : List Match) (id : String) :
    (ofMatches ms).matchesFor id = ms.filter (·.patternId == id) := by
  rw [matchesFor, find?_groups]
  split
  · next hnone => exact hnone.symm
  · rfl

/-- All matches together are the input sorted by pattern. -/
theorem allMatches_eq (ms : List Match) : (ofMatches ms).allMatches = sortBy (·.patternId) ms :=
  Dict.flatMap_groupBy _ ms

/-- Grouping neither loses nor repeats a match. -/
theorem allMatches_perm (ms : List Match) : (ofMatches ms).allMatches.Perm ms := by
  rw [allMatches_eq]
  exact sortBy_perm _ ms

theorem mem_allMatches {ms : List Match} {m : Match} : m ∈ (ofMatches ms).allMatches ↔ m ∈ ms :=
  (allMatches_perm ms).mem_iff

/-- Among all matches, those of one pattern stand in the order in which they came. -/
theorem filter_allMatches (ms : List Match) (id : String) :
    (ofMatches ms).allMatches.filter (·.patternId == id) = ms.filter (·.patternId == id) :=
  Dict.filter_flatMap_groupBy _ ms id

/-- All matches together are in the order of their patterns. -/
theorem allMatches_ordered (ms : List Match) :
    (ofMatches ms).allMatches.Pairwise fun a b => a.patternId ≤ b.patternId :=
  Dict.flatMap_groupBy_ordered _ ms

/-- The spans of a pattern are those of the matches that bear its id. -/
theorem mem_spansFor {ms : List Match} {id : Option String} {s : Span} :
    s ∈ (ofMatches ms).spansFor id ↔ ∃ m ∈ ms, id = some m.patternId ∧ m.span = s := by
  cases id with
  | none => simp [spansFor]
  | some id =>
    simp only [spansFor, Option.elim_some, matchesFor_ofMatches, List.mem_map, List.mem_filter,
      beq_iff_eq, Option.some.injEq]
    exact ⟨fun ⟨m, ⟨hm, hid⟩, hs⟩ => ⟨m, hm, hid.symm, hs⟩,
      fun ⟨m, hm, hid, hs⟩ => ⟨m, ⟨hm, hid.symm⟩, hs⟩⟩

theorem any_spansFor_iff {ms : List Match} {id : Option String} {p : Span → Bool} :
    ((ofMatches ms).spansFor id).any p = true ↔
      ∃ m ∈ ms, id = some m.patternId ∧ p m.span = true := by
  simp only [List.any_eq_true, mem_spansFor]
  constructor
  · rintro ⟨_, ⟨m, hm, hid, rfl⟩, hp⟩
    exact ⟨m, hm, hid, hp⟩
  · rintro ⟨m, hm, hid, hp⟩
    exact ⟨m.span, ⟨m, hm, hid, rfl⟩, hp⟩

end Registry

end RuleSieve
