/-
  Merging in 64 bits.

  `Report.merge` adds numbers up however large they become.  In 64 bits the same report comes about with
  what is left of its counts, and none at all if a time has no room, or a count if additions are checked
  (`Report.mergedInWords_eq`).  It does not matter at which of the reports the room runs out, because
  numbers only grow.  A batch has room as long as its units and its findings can be counted in 64 bits
  (`Engine.mergedInWords_evaluateAll`).
-/
import Mathlib.Algebra.Order.BigOperators.Group.List
import Mathlib.Algebra.Order.Group.Nat
import RuleSieve.Proofs.Accounting

namespace RuleSieve

namespace Word

/-- There is room for the count in 64 bits, or nobody checks. -/
def HasRoom (checked : Bool) (n : Nat) : Prop := checked = true → n < count

variable {checked : Bool} {m n : Nat}

instance : Decidable (HasRoom checked n) := inferInstanceAs (Decidable (_ → _))

theorem hasRoom_zero : HasRoom checked 0 := fun _ => by decide

/-- A sum that has room leaves room for what it adds. -/
theorem HasRoom.of_add (h : HasRoom checked (m + n)) : HasRoom checked m :=
  fun hchecked => Nat.lt_of_le_of_lt (Nat.le_add_right m n) (h hchecked)

/-- What is left of a sum in 64 bits is the same if something of the first count was lost before. -/
theorem add?_mod (hm : HasRoom checked m) (n : Nat) : add? checked (m % count) n =
    if HasRoom checked (m + n) then some ((m + n) % count) else none := by
  unfold add?
  cases checked with
  | true =>
    rw [Nat.mod_eq_of_lt (hm rfl)]
    by_cases hroom : m + n < count <;> simp [HasRoom, hroom, Nat.mod_eq_of_lt]
  | false =>
    have hanyway : HasRoom false (m + n) := fun h => nomatch h
    rw [if_pos hanyway]
    by_cases hroom : m % count + n < count
    · rw [if_pos hroom, ← Nat.mod_add_mod, Nat.mod_eq_of_lt hroom]
    · simp [hroom]

end Word

/-- What comes after a first step that depends on a condition depends on it as well. -/
theorem ite_bind {α β : Type} {p : Prop} {_ : Decidable p} (a : α) (f : α → Option β) :
    ((if p then some a else none) >>= f) = if p then f a else none := by
  split <;> rfl

theorem ite_ite {α : Type} {p q : Prop} {_ : Decidable p} {_ : Decidable q} (a b : α) :
    (if p then if q then a else b else b) = if p ∧ q then a else b := by
  rw [ite_and]

/-! ## Timings -/

namespace Timing

variable {checked : Bool} {t : Timing} {timings others : Dict Timing}

/-- The timing with what is left of its counts in 64 bits. -/
def inWords (t : Timing) : Timing :=
  { t with evaluations := t.evaluations % Word.count, findings := t.findings % Word.count }

/-- The timings with what is left of their counts in 64 bits. -/
def allInWords (timings : Dict Timing) : Dict Timing :=
  timings.map fun entry => (entry.1, entry.2.inWords)

/-- There is room for the total and for the counts. -/
def Fits (checked : Bool) (t : Timing) : Prop :=
  t.total < timeLimit ∧ Word.HasRoom checked t.evaluations ∧ Word.HasRoom checked t.findings

instance : Decidable (t.Fits checked) := inferInstanceAs (Decidable (_ ∧ _ ∧ _))

/-- A sum has no room if the first timing has none. -/
theorem Fits.of_add {other : Timing} (h : (t.add other).Fits checked) : t.Fits checked :=
  ⟨Nat.lt_of_le_of_lt (Nat.le_add_right _ _) h.1, h.2.1.of_add, h.2.2.of_add⟩

theorem fits_zero (id : String) : (⟨id, 0, 0, 0⟩ : Timing).Fits checked :=
  ⟨(by decide : 0 < timeLimit), Word.hasRoom_zero, Word.hasRoom_zero⟩

/-- Adding in 64 bits gives what is left of the sum there, if it has room. -/
theorem add?_inWords (h : t.Fits checked) (other : Timing) :
    t.inWords.add? checked other =
      if (t.add other).Fits checked then some (t.add other).inWords else none := by
  have htotal : addTime? t.inWords.total other.total =
      if (t.add other).total < timeLimit then some (t.add other).total else none := rfl
  have hevaluations : Word.add? checked t.inWords.evaluations other.evaluations =
      if Word.HasRoom checked (t.add other).evaluations then some (t.add other).inWords.evaluations
      else none := Word.add?_mod h.2.1 _
  have hfindings : Word.add? checked t.inWords.findings other.findings =
      if Word.HasRoom checked (t.add other).findings then some (t.add other).inWords.findings
      else none := Word.add?_mod h.2.2 _
  simp only [add?, htotal, hevaluations, hfindings, ite_bind, ite_ite]
  rfl

/-- No timing counts more than the table does. -/
theorem le_countAll (count : Timing → Nat) {entry : String × Timing} (h : entry ∈ timings) :
    count entry.2 ≤ countAll count timings :=
  List.le_sum_of_mem (List.mem_map_of_mem h)

/-- A timing that loses its high bits is found under its own id. -/
theorem find?_allInWords (id : String) (timings : Dict Timing) :
    Dict.find? id (allInWords timings) = (Dict.find? id timings).map inWords :=
  Dict.find?_mapValues inWords id timings

/-- What is known of a rule so far; nothing at first. -/
def known (timings : Dict Timing) (id ruleId : String) : Timing :=
  (Dict.find? id timings).getD ⟨ruleId, 0, 0, 0⟩

/-- What is known of a rule, without its high bits. -/
theorem known_allInWords (id ruleId : String) :
    known (allInWords timings) id ruleId = (known timings id ruleId).inWords := by
  rw [known, known, find?_allInWords]
  cases Dict.find? id timings <;> rfl

/-- What is known of a rule has room if the whole table has. -/
theorem fits_known (h : ∀ entry ∈ timings, entry.2.Fits checked) (id ruleId : String) :
    (known timings id ruleId).Fits checked := by
  rw [known]
  cases hfound : Dict.find? id timings with
  | none => exact fits_zero ruleId
  | some t => exact h _ (Dict.mem_of_find? hfound)

/-- The table with other evaluations of a rule added to what is known of it. -/
def addUnder (timings : Dict Timing) (id : String) (other : Timing) : Dict Timing :=
  timings.alter id fun known => (known.getD ⟨other.ruleId, 0, 0, 0⟩).add other

/-- Adding to one rule leaves the other rules as they are. -/
theorem find?_addUnder (h : timings.Sorted) (id key : String) (other : Timing) :
    Dict.find? key (addUnder timings id other) =
      if key = id then some ((known timings id other.ruleId).add other)
      else Dict.find? key timings :=
  Dict.find?_alter h id key _

/-- High bits may be lost before the table is extended or after it. -/
theorem allInWords_addUnder (h : timings.Sorted) (id : String) (other : Timing) :
    (allInWords timings).insert id ((known timings id other.ruleId).add other).inWords =
      allInWords (addUnder timings id other) := by
  have hwords : Dict.Sorted (allInWords timings) := h.mapValues inWords
  refine Dict.Sorted.ext (hwords.alter _ _) ((h.alter _ _).mapValues inWords) fun key => ?_
  rw [find?_allInWords, find?_addUnder h, Dict.insert, Dict.find?_alter hwords, find?_allInWords]
  by_cases hkey : key = id
  · rw [if_pos hkey, if_pos hkey, Option.map_some]
  · rw [if_neg hkey, if_neg hkey]

/-- A table has room after an addition if the sum has. -/
theorem fits_addUnder (h : timings.Sorted) (hfits : ∀ entry ∈ timings, entry.2.Fits checked)
    {id : String} {other : Timing}
    (hsum : ((known timings id other.ruleId).add other).Fits checked) :
    ∀ entry ∈ addUnder timings id other, entry.2.Fits checked := by
  rintro ⟨key, t⟩ hentry
  have hsorted : Dict.Sorted (addUnder timings id other) := h.alter _ _
  rw [hsorted.mem_iff, find?_addUnder h] at hentry
  by_cases hkey : key = id
  · rw [if_pos hkey] at hentry
    exact Option.some.inj hentry ▸ hsum
  · rw [if_neg hkey] at hentry
    exact hfits _ (Dict.mem_of_find? hentry)

/-- Where merged tables have room, the first one has. -/
theorem fits_of_mergeAll (h : timings.Sorted) (ho : others.Sorted)
    (hall : ∀ entry ∈ mergeAll timings others, entry.2.Fits checked) :
    ∀ entry ∈ timings, entry.2.Fits checked := by
  rintro ⟨id, t⟩ hentry
  have hmerged := find?_mergeAll h ho id
  rw [h.mem_iff.1 hentry] at hmerged
  cases hother : Dict.find? id others with
  | none =>
    rw [hother] at hmerged
    exact hall (id, t) (Dict.mem_of_find? hmerged)
  | some other =>
    rw [hother] at hmerged
    exact Fits.of_add (hall (id, t.add other) (Dict.mem_of_find? hmerged))

/-- In 64 bits tables are merged into what is left of the merged table, if it has room. -/
theorem mergeAll?_allInWords (h : timings.Sorted) (ho : others.Sorted)
    (hfits : ∀ entry ∈ timings, entry.2.Fits checked) :
    mergeAll? checked (allInWords timings) others =
      if ∀ entry ∈ mergeAll timings others, entry.2.Fits checked
      then some (allInWords (mergeAll timings others)) else none := by
  induction others generalizing timings with
  | nil => exact (if_pos hfits).symm
  | cons other rest ih =>
    obtain ⟨id, other⟩ := other
    obtain ⟨-, hrest⟩ := List.pairwise_cons.1 ho
    have hsorted : Dict.Sorted (addUnder timings id other) := h.alter _ _
    have hmerged : mergeAll timings ((id, other) :: rest) = mergeAll (addUnder timings id other) rest :=
      rfl
    have hstep : mergeAll? checked (allInWords timings) ((id, other) :: rest) =
        (known (allInWords timings) id other.ruleId).add? checked other >>=
          fun sum => mergeAll? checked ((allInWords timings).insert id sum) rest := by
      rw [mergeAll?, List.foldlM_cons]
      simp only [bind_assoc, pure_bind]
      rfl
    rw [hstep, hmerged, known_allInWords, add?_inWords (fits_known hfits id other.ruleId)]
    by_cases hsum : ((known timings id other.ruleId).add other).Fits checked
    · rw [if_pos hsum, Option.bind_eq_bind, Option.bind_some, allInWords_addUnder h]
      exact ih hsorted hrest (fits_addUnder h hfits hsum)
    · -- the sum only grows further on, so that there is no room for what becomes of it
      have hnone : ¬ ∀ entry ∈ mergeAll (addUnder timings id other) rest, entry.2.Fits checked := by
        intro hall
        have hfound := find?_addUnder h id id other
        rw [if_pos rfl] at hfound
        exact hsum (fits_of_mergeAll hsorted hrest hall _ (Dict.mem_of_find? hfound))
      rw [if_neg hsum, if_neg hnone]
      rfl

end Timing

/-! ## Reports -/

namespace Report

variable {checked : Bool} {a b : Report}

/-- The report with what is left of its counts in 64 bits. -/
def inWords (report : Report) : Report :=
  { report with
    processed := report.processed % Word.count
    skipped := report.skipped % Word.count
    timings := Timing.allInWords report.timings }

/-- There is room for the times and for the counts. -/
def Fits (checked : Bool) (report : Report) : Prop :=
  Word.HasRoom checked report.processed ∧ Word.HasRoom checked report.skipped ∧
    ∀ entry ∈ report.timings, entry.2.Fits checked

instance (report : Report) : Decidable (report.Fits checked) :=
  inferInstanceAs (Decidable (_ ∧ _ ∧ _))

theorem fits_empty : empty.Fits checked :=
  ⟨Word.hasRoom_zero, Word.hasRoom_zero, fun _ hentry => absurd hentry List.not_mem_nil⟩

/-- Where merged reports have room, the first one has. -/
theorem Fits.of_merge (ha : a.Ordered) (hb : b.Ordered) (h : (a.merge b).Fits checked) :
    a.Fits checked :=
  ⟨h.1.of_add, h.2.1.of_add, Timing.fits_of_mergeAll ha hb h.2.2⟩

/-- In 64 bits reports are merged into what is left of the merged report, if it has room. -/
theorem merge?_inWords (ha : a.Ordered) (hb : b.Ordered) (h : a.Fits checked) :
    a.inWords.merge? checked b =
      if (a.merge b).Fits checked then some (a.merge b).inWords else none := by
  have hprocessed : Word.add? checked a.inWords.processed b.processed =
      if Word.HasRoom checked (a.merge b).processed then some (a.merge b).inWords.processed
      else none := Word.add?_mod h.1 _
  have hskipped : Word.add? checked a.inWords.skipped b.skipped =
      if Word.HasRoom checked (a.merge b).skipped then some (a.merge b).inWords.skipped
      else none := Word.add?_mod h.2.1 _
  have htimings : Timing.mergeAll? checked a.inWords.timings b.timings =
      if ∀ entry ∈ (a.merge b).timings, entry.2.Fits checked then some (a.merge b).inWords.timings
      else none := Timing.mergeAll?_allInWords ha hb h.2.2
  simp only [merge?, hprocessed, hskipped, htimings, ite_bind, ite_ite]
  rfl

/-- Reports merged one after the other in 64 bits. -/
def mergedInWords (checked : Bool) (parts : List Report) : Option Report :=
  parts.foldlM (merge? checked) empty

/-- Where the merged report of a list has room, the one that was started with has. -/
theorem Fits.of_foldl_merge {parts : List Report} (ha : a.Ordered)
    (hparts : ∀ part ∈ parts, part.Ordered) (h : (parts.foldl merge a).Fits checked) :
    a.Fits checked := by
  induction parts generalizing a with
  | nil => exact h
  | cons part parts ih =>
    obtain ⟨hpart, hrest⟩ := List.forall_mem_cons.1 hparts
    exact (ih ha.merge hrest h).of_merge ha hpart

/-- Merging a list of reports in 64 bits, started with a report that has room, by induction on the
    list. -/
theorem foldlM_merge?_inWords {parts : List Report} (ha : a.Ordered)
    (hparts : ∀ part ∈ parts, part.Ordered) (hfits : a.Fits checked) :
    parts.foldlM (merge? checked) a.inWords =
      if (parts.foldl merge a).Fits checked then some (parts.foldl merge a).inWords else none := by
  induction parts generalizing a with
  | nil => exact (if_pos hfits).symm
  | cons part parts ih =>
    obtain ⟨hpart, hrest⟩ := List.forall_mem_cons.1 hparts
    rw [List.foldlM_cons, List.foldl_cons, merge?_inWords ha hpart hfits]
    by_cases hroom : (a.merge part).Fits checked
    · rw [if_pos hroom, Option.bind_eq_bind, Option.bind_some]
      exact ih ha.merge hrest hroom
    · have hnone : ¬ (parts.foldl merge (a.merge part)).Fits checked :=
        fun h => hroom (h.of_foldl_merge ha.merge hrest)
      rw [if_neg hroom, if_neg hnone]
      rfl

/-- Reports that are merged in 64 bits give what is left there of the merged report, if it has room. -/
theorem mergedInWords_eq {parts : List Report} (hparts : ∀ part ∈ parts, part.Ordered) :
    mergedInWords checked parts =
      if (parts.foldl merge empty).Fits checked then some (parts.foldl merge empty).inWords
      else none :=
  foldlM_merge?_inWords ordered_empty hparts fits_empty

/-- What merged reports know of a rule is what they know of it alone, added up. -/
theorem counted_foldl_merge {parts : List Report} (hparts : ∀ part ∈ parts, part.Ordered)
    {count : Timing → Nat} (hcount : ∀ s t : Timing, count (s.add t) = count s + count t)
    (id : String) :
    (parts.foldl merge empty).counted count id = (parts.map (·.counted count id)).sum := by
  rw [foldl_merge_hom (· + ·) 0 (f := fun part => part.counted count id)
    (fun _ _ => counted_merge hcount id) ordered_empty hparts, List.sum_eq_foldr]
  exact Nat.zero_add _

/-- There is room for a report just if there is room for what it counts of every rule. -/
theorem fits_iff_counted (ha : a.Ordered) : a.Fits checked ↔
    Word.HasRoom checked a.processed ∧ Word.HasRoom checked a.skipped ∧
      ∀ id, a.counted (·.total) id < Timing.timeLimit ∧
        Word.HasRoom checked (a.counted (·.evaluations) id) ∧
        Word.HasRoom checked (a.counted (·.findings) id) := by
  refine and_congr_right fun _ => and_congr_right fun _ => ⟨fun h id => ?_, fun h => ?_⟩
  · unfold counted
    cases hfound : a.timings.find? id with
    | none => exact Timing.fits_zero id
    | some t => exact h (id, t) (Dict.mem_of_find? hfound)
  · rintro ⟨id, t⟩ hentry
    have hid := h id
    simp only [counted, (Dict.Sorted.mem_iff ha).1 hentry, Option.elim_some] at hid
    exact hid

/-- There is room for merged reports just if there is room for all the sums. -/
theorem fits_merged_iff {parts : List Report} (hparts : ∀ part ∈ parts, part.Ordered) :
    (parts.foldl merge empty).Fits checked ↔
      Word.HasRoom checked (parts.map (·.processed)).sum ∧
      Word.HasRoom checked (parts.map (·.skipped)).sum ∧
      ∀ id, (parts.map (·.counted (·.total) id)).sum < Timing.timeLimit ∧
        Word.HasRoom checked (parts.map (·.counted (·.evaluations) id)).sum ∧
        Word.HasRoom checked (parts.map (·.counted (·.findings) id)).sum := by
  have hjoins := joins_foldl_merge hparts
  have htotal (id : String) : (parts.foldl merge empty).counted (·.total) id =
      (parts.map (·.counted (·.total) id)).sum := counted_foldl_merge hparts (fun _ _ => rfl) id
  simp only [fits_iff_counted (ordered_empty.foldl_merge parts), hjoins.processed, hjoins.skipped,
    hjoins.evaluations, hjoins.found, htotal]

/-- A report that has room for all its counts loses none of them in 64 bits. -/
theorem inWords_of_fits {report : Report} (h : report.Fits true) : report.inWords = report := by
  obtain ⟨hprocessed, hskipped, htimings⟩ := h
  have hall : Timing.allInWords report.timings = report.timings := by
    rw [Timing.allInWords]
    refine (List.map_congr_left fun entry hentry => ?_).trans (List.map_id _)
    obtain ⟨-, hevaluations, hfindings⟩ := htimings entry hentry
    rw [Timing.inWords, Nat.mod_eq_of_lt (hevaluations rfl), Nat.mod_eq_of_lt (hfindings rfl)]
    rfl
  rw [inWords, Nat.mod_eq_of_lt (hprocessed rfl), Nat.mod_eq_of_lt (hskipped rfl), hall]

/-- A report with room for checked additions has room for all additions. -/
theorem Fits.of_checked {report : Report} (h : report.Fits true) : report.Fits checked :=
  ⟨fun _ => h.1 rfl, fun _ => h.2.1 rfl, fun entry hentry =>
    ⟨(h.2.2 entry hentry).1, fun _ => (h.2.2 entry hentry).2.1 rfl,
      fun _ => (h.2.2 entry hentry).2.2 rfl⟩⟩

end Report

/-! ## Batches -/

namespace Engine

variable {config : Config} {rules : List Rule} {units : List MatchUnit}

/-- The report of a unit counts no time. -/
theorem Gives.countAll_total {unit : MatchUnit} {report : Report} (h : Gives config rules unit report) :
    Timing.countAll (·.total) report.timings = 0 := by
  cases h <;> rfl

/-- No time is counted. -/
theorem countAll_total_evaluateAll (config : Config) (rules : List Rule) (units : List MatchUnit) :
    Timing.countAll (·.total) (evaluateAll config rules units).timings = 0 := by
  induction units using List.reverseRecOn with
  | nil => rfl
  | append_singleton units unit ih =>
    have hunit := (evaluateUnit_gives config rules unit).countAll_total
    rw [evaluateAll_concat]
    show Timing.countAll _ (Timing.mergeAll _ _) = 0
    rw [Timing.countAll_mergeAll (fun _ => rfl) (fun _ _ => rfl), ih, hunit]

/-- A batch has room in 64 bits if its units and its findings can be counted there. -/
theorem fits_evaluateAll (hunits : units.length < Word.count)
    (hfindings : (evaluateAll config rules units).findings.length < Word.count) :
    (evaluateAll config rules units).Fits true := by
  have hbalanced := evaluateAll_balanced config rules units
  have hprocessed := hbalanced.units
  have hcounted := hbalanced.evaluations
  refine ⟨fun _ => by omega, fun _ => by omega, fun entry hentry => ⟨?_, fun _ => ?_, fun _ => ?_⟩⟩
  · have htotal := Timing.le_countAll (·.total) hentry
    rw [countAll_total_evaluateAll] at htotal
    exact Nat.lt_of_le_of_lt htotal (by decide)
  · have hevaluations := Timing.le_countAll (·.evaluations) hentry
    omega
  · have hfound := Timing.le_countAll (·.findings) hentry
    rw [hbalanced.findings] at hfound
    exact Nat.lt_of_le_of_lt hfound hfindings

/-- The report of a batch whose units and findings can be counted in 64 bits is merged there from those
    of its units, whether or not additions are checked. -/
theorem mergedInWords_evaluateAll (checked : Bool) (hunits : units.length < Word.count)
    (hfindings : (evaluateAll config rules units).findings.length < Word.count) :
    Report.mergedInWords checked (units.map (evaluateUnit config rules)) =
      some (evaluateAll config rules units) := by
  have hfits := fits_evaluateAll hunits hfindings
  have hordered := forall_map_evaluateUnit_ordered config rules units
  rw [Report.mergedInWords_eq hordered, ← evaluateAll, if_pos hfits.of_checked,
    Report.inWords_of_fits hfits]

end Engine

end RuleSieve
