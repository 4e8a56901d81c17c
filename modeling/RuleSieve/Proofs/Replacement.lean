/-
  What a fix by regular expression makes of a text.

  The matches that are chosen give way to their replacements, and everything between them stays
  (`rewritten_splice`).  A count chooses the first matches, as it says it does, unless it is zero: then
  all of them are replaced (`FixRegex.replacesFirst_iff`).
-/
import RuleSieve.Finding
import RuleSieve.Proofs.Occurrences

namespace RuleSieve

/-! ## Rewritten texts -/

namespace Regex

variable {text : List Char} {new : Match → List Char} {ms : List Match}

/-- From a place on, each of the matches gives way to something new, and the text before, between and
    behind them stays. -/
inductive Rewritten (new : Match → List Char) :
    (place : Nat) → List Match → (rest out : List Char) → Prop
  | done (place : Nat) (rest : List Char) : Rewritten new place [] rest rest
  | next {place : Nat} {m : Match} {ms : List Match} {gap word rest out : List Char}
      (hstart : m.start = place + gap.length) (hstop : m.stop = m.start + word.length)
      (h : Rewritten new m.stop ms rest out) :
      Rewritten new place (m :: ms) (gap ++ (word ++ rest)) (gap ++ (new m ++ out))

theorem slice_append_drop (text : List Char) {start stop : Nat} (h : start ≤ stop) :
    slice text start stop ++ text.drop stop = text.drop start := by
  have hle : start ≤ (text.take stop).length ∨ text.length ≤ stop := by
    rw [List.length_take]
    omega
  rw [slice]
  rcases hle with hle | hle
  · rw [← List.drop_append_of_le_length hle, List.take_append_drop]
  · rw [List.take_of_length_le hle, List.drop_eq_nil_of_le hle, List.append_nil]

theorem length_slice {start stop : Nat} (h : stop ≤ text.length) :
    (slice text start stop).length = stop - start := by
  rw [slice, List.length_drop, List.length_take, Nat.min_eq_left h]

theorem rewritten_nil_iff {place : Nat} {rest out : List Char} :
    Rewritten new place [] rest out ↔ out = rest := by
  constructor
  · rintro ⟨⟩
    rfl
  · rintro rfl
    exact .done place _

/-- Matches in their order are replaced one by one. -/
theorem rewritten_splice (new : Match → List Char) (place : Nat)
    (hms : ∀ m ∈ ms, place ≤ m.start ∧ m.start ≤ m.stop ∧ m.stop ≤ text.length)
    (hapart : ms.Pairwise fun m later => m.stop ≤ later.start) :
    Rewritten new place ms (text.drop place) (splice text new place ms) := by
  induction ms generalizing place with
  | nil => exact .done place _
  | cons m ms ih =>
    obtain ⟨⟨hplace, hle, hstop⟩, hms⟩ := List.forall_mem_cons.1 hms
    obtain ⟨hfirst, hapart⟩ := List.pairwise_cons.1 hapart
    have hrest := ih m.stop (fun k hk => ⟨hfirst k hk, (hms k hk).2⟩) hapart
    rw [splice, List.append_assoc, ← slice_append_drop text hplace, ← slice_append_drop text hle]
    refine .next ?_ ?_ hrest
    · rw [length_slice (Nat.le_trans hle hstop), Nat.add_sub_cancel' hplace]
    · rw [length_slice hstop, Nat.add_sub_cancel' hle]

/-- The leftmost matches can be replaced, and so can some of them. -/
theorem Leftmost.rewritten {regex : Regex} (hmeasured : regex.Measured text)
    (h : regex.Leftmost text ms) (new : Match → List Char) {chosen : List Match}
    (hchosen : chosen.Sublist ms) : Rewritten new 0 chosen text (splice text new 0 chosen) := by
  refine rewritten_splice new 0 (fun m hm => ?_) ?_
  · obtain ⟨hstart, hoccurs⟩ := h.occurs m (hchosen.subset hm)
    exact ⟨Nat.zero_le _, (hmeasured m.start hstart m hoccurs).2⟩
  · exact (h.apart.sublist hchosen).imp fun hfollows => (Match.follows_iff.1 hfollows).1

end Regex

/-! ## Fixes -/

namespace FixRegex

/-- What a fix puts in place of a match. -/
def word (fix : FixRegex) (regex : Regex) (text : String) (m : Regex.Match) : List Char :=
  (Regex.replacementParts 0 fix.replacement.toList).flatMap (·.expand regex text.toList m)

/-- The fix replaces the first matches, as many as its count says, or all of them without a count. -/
def ReplacesFirst (fix : FixRegex) (regex : Regex) (text : String) : Prop :=
  ∃ out : String, fix.apply text = .ok out ∧ ∀ ms, regex.Leftmost text.toList ms →
    Regex.Rewritten (fix.word regex text) 0 (fix.count.elim ms fun n => ms.take n)
      text.toList out.toList

/-- The matches that a fix replaces. -/
def chosen (fix : FixRegex) (ms : List Regex.Match) : List Regex.Match :=
  if fix.count.getD 0 = 0 then ms else ms.take (fix.count.getD 0)

/-- A count that is not zero chooses as many of the first matches. -/
theorem chosen_of_count_ne {fix : FixRegex} (h : fix.count ≠ some 0) (ms : List Regex.Match) :
    fix.chosen ms = fix.count.elim ms fun n => ms.take n := by
  obtain ⟨regex, replacement, count⟩ := fix
  match count with
  | none => rfl
  | some 0 => exact absurd rfl h
  | some (n + 1) => rfl

theorem apply_eq (fix : FixRegex) {regex : Regex}
    (h : Regex.compile fix.regex.toList = .ok regex) (text : String) :
    fix.apply text = .ok (String.ofList (Regex.splice text.toList (fix.word regex text) 0
      (fix.chosen (regex.allMatches text.toList)))) := by
  rw [apply, h]
  rfl

/-- A pattern has leftmost matches in each text, and only one list of them.  A fix with that pattern
    replaces the first ones, as many as its count says, just if the count is not zero or nothing
    changes: with a count of zero it replaces all of them. -/
theorem replacesFirst_iff (fix : FixRegex) {regex : Regex}
    (hregex : Regex.compile fix.regex.toList = .ok regex) (text : String) :
    (∃! ms, regex.Leftmost text.toList ms) ∧
    (fix.count = some 0 → ∀ ms, regex.Leftmost text.toList ms → ∃ out : String,
      fix.apply text = .ok out ∧
        Regex.Rewritten (fix.word regex text) 0 ms text.toList out.toList) ∧
    (fix.ReplacesFirst regex text ↔ fix.count ≠ some 0 ∨ fix.apply text = .ok text) := by
  have hmeasured := Regex.measured_of_compile hregex text.toList
  have hrewritten (ms) (hms : regex.Leftmost text.toList ms) : ∃ out : String,
      fix.apply text = .ok out ∧
        Regex.Rewritten (fix.word regex text) 0 (fix.chosen ms) text.toList out.toList := by
    refine ⟨_, fix.apply_eq hregex text, ?_⟩
    rw [String.toList_ofList, ← (Regex.leftmost_iff hmeasured).1 hms]
    refine hms.rewritten hmeasured _ ?_
    rw [chosen]
    split
    · exact List.Sublist.refl ms
    · exact List.take_sublist _ _
  refine ⟨⟨_, Regex.leftmost_allMatches hmeasured, fun ms => (Regex.leftmost_iff hmeasured).1⟩,
    fun hzero ms hms => ?_, ?_⟩
  · obtain ⟨out, happly, hout⟩ := hrewritten ms hms
    rw [chosen, hzero] at hout
    exact ⟨out, happly, hout⟩
  · constructor
    · rintro ⟨out, happly, hfirst⟩
      refine or_iff_not_imp_left.2 fun hcount => ?_
      have hnone := hfirst _ (Regex.leftmost_allMatches hmeasured)
      rw [not_not.1 hcount] at hnone
      have hsame : out.toList = text.toList := Regex.rewritten_nil_iff.1 hnone
      rw [happly, String.toList_inj.1 hsame]
    · intro h
      by_cases hcount : fix.count = some 0
      · refine ⟨text, h.resolve_left (not_not.2 hcount), fun ms _ => ?_⟩
        rw [hcount]
        exact .done 0 _
      · obtain ⟨out, happly, -⟩ := hrewritten _ (Regex.leftmost_allMatches hmeasured)
        refine ⟨out, happly, fun ms hms => ?_⟩
        obtain ⟨out', happly', hout⟩ := hrewritten ms hms
        obtain rfl := Except.ok.inj (happly'.symm.trans happly)
        rwa [chosen_of_count_ne hcount] at hout

/-- A pattern that can repeat a letter matches nothing beside the other letters. -/
theorem allMatches_repeated {regex : Regex} (h : Regex.compile "a*".toList = .ok regex) :
    regex.allMatches "baac".toList =
      [⟨0, 0, [(1, 0), (0, 0)]⟩, ⟨1, 3, [(1, 3), (0, 1)]⟩, ⟨4, 4, [(1, 4), (0, 4)]⟩] := by
  have hcompiled : (Regex.compile "a*".toList).toOption.map
      (fun regex => (List.range ("baac".toList.length + 1)).map
        (regex.machine.slotsAt "baac".toList.toArray)) =
      some [some [(1, 0), (0, 0)], some [(1, 3), (0, 1)], some [(1, 3), (0, 2)],
        some [(1, 3), (0, 3)], some [(1, 4), (0, 4)]] := by cbv
  rw [h] at hcompiled
  have hfind := Regex.findFrom_of_slotsAt (Option.some.inj hcompiled)
  show regex.matchesFrom "baac".toList.toArray 5 0 none = _
  simp only [Regex.matchesFrom, Regex.nextMatch, hfind]
  rfl

/-- A letter that is a pattern matches wherever it stands. -/
theorem allMatches_letter {regex : Regex} (h : Regex.compile "a".toList = .ok regex) :
    regex.allMatches "aa".toList = [⟨0, 1, [(1, 1), (0, 0)]⟩, ⟨1, 2, [(1, 2), (0, 1)]⟩] := by
  have hcompiled : (Regex.compile "a".toList).toOption.map
      (fun regex => (List.range ("aa".toList.length + 1)).map
        (regex.machine.slotsAt "aa".toList.toArray)) =
      some [some [(1, 1), (0, 0)], some [(1, 2), (0, 1)], none] := by cbv
  rw [h] at hcompiled
  have hfind := Regex.findFrom_of_slotsAt (Option.some.inj hcompiled)
  show regex.matchesFrom "aa".toList.toArray 3 0 none = _
  simp only [Regex.matchesFrom, Regex.nextMatch, hfind]
  rfl

/-- Two of three matches, of which the first and the last one are empty. -/
theorem replacesFirst_iff_empty :
    ∃ regex, Regex.compile "a*".toList = .ok regex ∧
      (∃! ms, regex.Leftmost "baac".toList ms) ∧
      FixRegex.apply ⟨"a*", "-", some 2⟩ "baac" = .ok "-b-c" ∧
      FixRegex.apply ⟨"a*", "-", none⟩ "baac" = .ok "-b-c-" ∧
      FixRegex.ReplacesFirst ⟨"a*", "-", some 2⟩ regex "baac" := by
  obtain ⟨regex, hregex⟩ : ∃ regex, Regex.compile "a*".toList = .ok regex := ⟨_, rfl⟩
  obtain ⟨hunique, -, hfirst⟩ := replacesFirst_iff ⟨"a*", "-", some 2⟩ hregex "baac"
  refine ⟨regex, hregex, hunique, ?_, ?_, hfirst.2 (.inl (by decide))⟩
  · rw [apply_eq ⟨"a*", "-", some 2⟩ hregex, allMatches_repeated hregex]
    rfl
  · rw [apply_eq ⟨"a*", "-", none⟩ hregex, allMatches_repeated hregex]
    rfl

/-- With a count of zero nothing should be replaced, but everything is. -/
theorem not_replacesFirst_zero :
    ∃ fix : FixRegex, ∃ regex, Regex.compile fix.regex.toList = .ok regex ∧ fix.count = some 0 ∧
      fix.apply "aa" = .ok "bb" ∧ ¬ fix.ReplacesFirst regex "aa" := by
  obtain ⟨regex, hregex⟩ : ∃ regex, Regex.compile "a".toList = .ok regex := ⟨_, rfl⟩
  have happly : FixRegex.apply ⟨"a", "b", some 0⟩ "aa" = .ok "bb" := by
    rw [apply_eq ⟨"a", "b", some 0⟩ hregex, allMatches_letter hregex]
    rfl
  refine ⟨⟨"a", "b", some 0⟩, regex, hregex, rfl, happly, ?_⟩
  rintro ⟨out, hout, hfirst⟩
  obtain rfl := Except.ok.inj (happly.symm.trans hout)
  have hmeasured := Regex.measured_of_compile hregex "aa".toList
  have hsame := Regex.rewritten_nil_iff.1 (hfirst _ (Regex.leftmost_allMatches hmeasured))
  exact absurd hsame (by decide)

end FixRegex

end RuleSieve
