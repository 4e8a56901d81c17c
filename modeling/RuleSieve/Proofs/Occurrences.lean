/-
  All matches in a text.

  A search that goes on behind the match before it finds the matches one by one.  They are the only
  list of matches of which each follows the one before, and each match that is left out starts within
  a match of the list or is empty where one stops (`leftmost_iff`).
-/
import Mathlib.Data.List.Pairwise
import Mathlib.Data.List.Sort
import RuleSieve.Proofs.Anchoring
import RuleSieve.Proofs.Extent
import RuleSieve.Proofs.Preference

namespace RuleSieve.Regex

variable {regex : Regex} {text : List Char} {m e : Match} {ms : List Match}

/-! ## Matches at a place -/

/-- The match that the pattern prefers at a place. -/
def matchAt? (regex : Regex) (text : List Char) (place : Nat) : Option Match :=
  (regex.machine.slotsAt text.toArray place).map .ofSlots

/-- The match is the one that the pattern prefers where it starts. -/
def Occurs (regex : Regex) (text : List Char) (m : Match) : Prop :=
  m.start ≤ text.length ∧ regex.matchAt? text m.start = some m

/-- Matches start where they are looked for, and stop there or later in the text. -/
def Measured (regex : Regex) (text : List Char) : Prop :=
  ∀ place ≤ text.length, ∀ m, regex.matchAt? text place = some m →
    m.start = place ∧ m.start ≤ m.stop ∧ m.stop ≤ text.length

/-- The matches of a compiled pattern are measured. -/
theorem measured_of_compile {source : List Char} (h : compile source = .ok regex)
    (text : List Char) : regex.Measured text := by
  obtain ⟨pattern, hread, rfl⟩ := compile_eq_ok_iff.1 h
  intro place hplace m hm
  obtain ⟨slots, hslots, rfl⟩ := Option.map_eq_some_iff.1 hm
  obtain ⟨u, hlead, haccepts, rfl⟩ := Machine.slotsAt_sound hslots
  obtain ⟨hstart, hstop⟩ := Node.extent (numbered_of_read hread) hplace hlead haccepts
  exact ⟨hstart, hstart.symm ▸ hstop⟩

/-- At each place one match is preferred. -/
theorem Occurs.eq_of_start (hm : regex.Occurs text m) (he : regex.Occurs text e)
    (h : m.start = e.start) : m = e :=
  Option.some.inj (hm.2.symm.trans ((congrArg _ h).trans he.2))

/-- What is found first in an ascending list is found at the least place. -/
theorem findSome?_ascending {α : Type} {f : Nat → Option α} {places : List Nat} {a : α}
    (hplaces : places.Pairwise (· < ·)) (h : places.findSome? f = some a) :
    ∃ place ∈ places, f place = some a ∧
      ∀ other ∈ places, f other ≠ none → place ≤ other := by
  obtain ⟨before, place, after, rfl, hfound, hbefore⟩ := List.findSome?_eq_some_iff.1 h
  refine ⟨place, by simp, hfound, fun other hother hsome => ?_⟩
  rcases List.mem_append.1 hother with hother | hother
  · exact absurd (hbefore other hother) hsome
  · rcases List.mem_cons.1 hother with rfl | hother
    · exact Nat.le_refl _
    · have hlater := (List.pairwise_append.1 hplaces).2.1
      exact Nat.le_of_lt (List.rel_of_pairwise_cons hlater hother)

theorem findFrom_eq (regex : Regex) (text : List Char) (start : Nat) :
    regex.findFrom text.toArray start =
      ((List.range (text.length + 1)).drop start).findSome? (regex.matchAt? text) := by
  rw [findFrom, Machine.searchFrom_eq, List.map_findSome?, List.size_toArray]
  rfl

/-- What a search finds can be read off a list of what is remembered at each place. -/
theorem findFrom_of_slotsAt {found : List (Option Slots)}
    (h : (List.range (text.length + 1)).map (regex.machine.slotsAt text.toArray) = found)
    (start : Nat) :
    regex.findFrom text.toArray start = (found.drop start).findSome? (·.map .ofSlots) := by
  rw [findFrom_eq, ← h, ← List.map_drop, List.findSome?_map]
  rfl

/-- The places from `start` on. -/
theorem mem_places {n start place : Nat} :
    place ∈ (List.range n).drop start ↔ start ≤ place ∧ place < n := by
  rw [List.range_eq_range', List.drop_range', List.mem_range'_1]
  omega

theorem Occurs.findFrom_ne_none (he : regex.Occurs text e) {start : Nat} (hstart : start ≤ e.start) :
    regex.findFrom text.toArray start ≠ none := by
  rw [findFrom_eq, ne_eq, List.findSome?_eq_none_iff]
  intro hnone
  have := hnone e.start (mem_places.2 ⟨hstart, Nat.lt_succ_of_le he.1⟩)
  rw [he.2] at this
  cases this

/-- A search finds the match that starts furthest to the left. -/
theorem findFrom_leftmost (hmeasured : regex.Measured text) {start : Nat}
    (h : regex.findFrom text.toArray start = some m) :
    regex.Occurs text m ∧ start ≤ m.start ∧
      ∀ e, regex.Occurs text e → start ≤ e.start → m.start ≤ e.start := by
  rw [findFrom_eq] at h
  have hascending : ((List.range (text.length + 1)).drop start).Pairwise (· < ·) :=
    List.pairwise_lt_range.sublist (List.drop_sublist _ _)
  obtain ⟨place, hplace, hfound, hfirst⟩ := findSome?_ascending hascending h
  obtain ⟨hstart, hle⟩ := mem_places.1 hplace
  have hle := Nat.le_of_lt_succ hle
  obtain ⟨rfl, -, -⟩ := hmeasured place hle m hfound
  refine ⟨⟨hle, hfound⟩, hstart, fun e he hlater => ?_⟩
  refine hfirst e.start (mem_places.2 ⟨hlater, Nat.lt_succ_of_le he.1⟩) ?_
  rw [he.2]
  exact Option.some_ne_none e

/-! ## One match after the other -/

/-- The match starts where the search has got to, or later, and stops later. -/
def Match.Ahead (last : Option Nat) (e : Match) : Prop :=
  ∀ stop ∈ last, stop ≤ e.start ∧ stop < e.stop

/-- The match starts where the other one stops, or later, and stops later. -/
def Match.Follows (e m : Match) : Prop := e.Ahead (some m.stop)

theorem Match.follows_iff : e.Follows m ↔ m.stop ≤ e.start ∧ m.stop < e.stop := by
  rw [Follows, Ahead]
  simp

/-- A match that follows an empty one starts behind it. -/
theorem Occurs.lt_start_of_follows (hm : regex.Occurs text m) (hempty : m.start = m.stop)
    (he : regex.Occurs text e) (hfollows : e.Follows m) : m.stop < e.start := by
  obtain ⟨hle, hlt⟩ := Match.follows_iff.1 hfollows
  refine Nat.lt_of_le_of_ne hle fun heq => ?_
  have hsame := hm.eq_of_start he (hempty.trans heq)
  rw [hsame] at hlt
  exact Nat.lt_irrefl _ hlt

/-- The search goes on with the leftmost match that is ahead. -/
theorem nextMatch_leftmost (hmeasured : regex.Measured text) {last : Option Nat}
    (h : regex.nextMatch text.toArray (last.getD 0) last = some m) :
    regex.Occurs text m ∧ m.Ahead last ∧
      ∀ e, regex.Occurs text e → e.Ahead last → m.start ≤ e.start := by
  have hahead : ∀ e : Match, e.Ahead last → last.getD 0 ≤ e.start := by
    intro e he
    cases last with
    | none => exact Nat.zero_le _
    | some stop => exact (he stop rfl).1
  unfold nextMatch at h
  split at h
  · next found hfound =>
    obtain ⟨hoccurs, hstart, hfirst⟩ := findFrom_leftmost hmeasured hfound
    obtain ⟨-, hle, -⟩ := hmeasured found.start hoccurs.1 found hoccurs.2
    split at h
    · -- an empty match where the last one stopped is passed over
      next hrepeats =>
      obtain ⟨hempty, hlast⟩ : found.start = found.stop ∧ some found.stop = last := by
        simpa using hrepeats
      subst hlast
      obtain ⟨hoccurs', hstart', hfirst'⟩ := findFrom_leftmost hmeasured h
      obtain ⟨-, hle', -⟩ := hmeasured m.start hoccurs'.1 m hoccurs'.2
      have hpast : found.stop < m.start := hstart'
      refine ⟨hoccurs', fun stop hstop => ?_, fun e he hfollows => ?_⟩
      · cases hstop
        exact ⟨Nat.le_of_lt hpast, Nat.lt_of_lt_of_le hpast hle'⟩
      · exact hfirst' e he (hoccurs.lt_start_of_follows hempty he hfollows)
    · next hnew =>
      cases h
      refine ⟨hoccurs, fun stop hstop => ?_, fun e he hbefore => hfirst e he (hahead e hbefore)⟩
      cases hstop
      have hnew : ¬ (m.start = m.stop ∧ m.stop = stop) := by simpa using hnew
      refine ⟨hstart, Nat.lt_of_le_of_ne (Nat.le_trans hstart hle) fun heq => hnew ⟨?_, heq.symm⟩⟩
      have hstart : stop ≤ m.start := hstart
      omega
  · cases h

/-- The search ends when no match is ahead. -/
theorem not_ahead_of_nextMatch (hmeasured : regex.Measured text) {last : Option Nat}
    (h : regex.nextMatch text.toArray (last.getD 0) last = none) (he : regex.Occurs text e) :
    ¬ e.Ahead last := by
  intro hahead
  unfold nextMatch at h
  split at h
  · next found hfound =>
    obtain ⟨hoccurs, -, -⟩ := findFrom_leftmost hmeasured hfound
    split at h
    · next hrepeats =>
      obtain ⟨hempty, rfl⟩ : found.start = found.stop ∧ some found.stop = last := by
        simpa using hrepeats
      exact he.findFrom_ne_none (hoccurs.lt_start_of_follows hempty he hahead) h
    · cases h
  · next hnone =>
    refine he.findFrom_ne_none ?_ hnone
    cases last with
    | none => exact Nat.zero_le _
    | some stop => exact (hahead stop rfl).1

/-! ## All matches -/

/-- The leftmost matches of a pattern in a text, without overlap: each follows the ones before it, and
    a match that is left out starts within one of them or is empty where one of them stops. -/
structure Leftmost (regex : Regex) (text : List Char) (ms : List Match) : Prop where
  occurs : ∀ m ∈ ms, regex.Occurs text m
  apart : ms.Pairwise fun m later => later.Follows m
  leftmost : ∀ e, regex.Occurs text e → e ∉ ms → ∃ m ∈ ms, m.start < e.start ∧ ¬ e.Follows m

/-- The leftmost matches among those that are ahead. -/
structure LeftmostFrom (regex : Regex) (text : List Char) (last : Option Nat) (ms : List Match) :
    Prop where
  occurs : ∀ m ∈ ms, regex.Occurs text m ∧ m.Ahead last
  apart : ms.Pairwise fun m later => later.Follows m
  leftmost : ∀ e, regex.Occurs text e → e.Ahead last → e ∉ ms →
    ∃ m ∈ ms, m.start < e.start ∧ ¬ e.Follows m

/-- What follows a match that is ahead is ahead too. -/
theorem Match.Follows.ahead {last : Option Nat} (hle : m.start ≤ m.stop) (h : e.Follows m)
    (hm : m.Ahead last) : e.Ahead last := by
  intro stop hstop
  obtain ⟨hstart, hlt⟩ := hm stop hstop
  obtain ⟨hafter, hpast⟩ := Match.follows_iff.1 h
  exact ⟨Nat.le_trans hstart (Nat.le_trans hle hafter), Nat.lt_trans hlt hpast⟩

/-- Where no match is ahead there are none. -/
theorem LeftmostFrom.nil {last : Option Nat} (h : ∀ e, regex.Occurs text e → ¬ e.Ahead last) :
    regex.LeftmostFrom text last [] where
  occurs _ hm := absurd hm List.not_mem_nil
  apart := .nil
  leftmost e he hahead := absurd hahead (h e he)

/-- A leftmost match, and the leftmost ones of those that follow it. -/
theorem LeftmostFrom.cons (hmeasured : regex.Measured text) {last : Option Nat}
    (hm : regex.Occurs text m) (hahead : m.Ahead last)
    (hfirst : ∀ e, regex.Occurs text e → e.Ahead last → m.start ≤ e.start)
    (h : regex.LeftmostFrom text (some m.stop) ms) : regex.LeftmostFrom text last (m :: ms) := by
  obtain ⟨-, hle, -⟩ := hmeasured m.start hm.1 m hm.2
  refine ⟨fun k hk => ?_, List.pairwise_cons.2 ⟨fun k hk => (h.occurs k hk).2, h.apart⟩, ?_⟩
  · rcases List.mem_cons.1 hk with rfl | hk
    · exact ⟨hm, hahead⟩
    · obtain ⟨hoccurs, hfollows⟩ := h.occurs k hk
      exact ⟨hoccurs, Match.Follows.ahead hle hfollows hahead⟩
  · intro e he hlater hnew
    obtain ⟨hne, hrest⟩ := not_or.1 (mt List.mem_cons.2 hnew)
    by_cases hfollows : e.Follows m
    · obtain ⟨k, hk, hcovers⟩ := h.leftmost e he hfollows hrest
      exact ⟨k, List.mem_cons_of_mem m hk, hcovers⟩
    · refine ⟨m, List.mem_cons_self, Nat.lt_of_le_of_ne (hfirst e he hlater) fun heq => ?_, hfollows⟩
      exact hne (he.eq_of_start hm heq.symm)

/-- Fuel lasts as long as no match that is ahead stops too early. -/
theorem matchesFrom_leftmost (hmeasured : regex.Measured text) (fuel : Nat) (last : Option Nat)
    (hfuel : ∀ e, regex.Occurs text e → e.Ahead last → text.length < fuel + e.stop) :
    regex.LeftmostFrom text last (regex.matchesFrom text.toArray fuel (last.getD 0) last) := by
  induction fuel generalizing last with
  | zero =>
    refine .nil fun e he hahead => ?_
    obtain ⟨-, -, hstop⟩ := hmeasured e.start he.1 e he.2
    have := hfuel e he hahead
    omega
  | succ fuel ih =>
    rw [matchesFrom]
    cases hnext : regex.nextMatch text.toArray (last.getD 0) last with
    | none => exact .nil fun e => not_ahead_of_nextMatch hmeasured hnext
    | some m =>
      obtain ⟨hoccurs, hahead, hfirst⟩ := nextMatch_leftmost hmeasured hnext
      refine .cons hmeasured hoccurs hahead hfirst (ih (some m.stop) fun e he hfollows => ?_)
      have hm := hfuel m hoccurs hahead
      obtain ⟨-, hlt⟩ := Match.follows_iff.1 hfollows
      omega

theorem leftmost_allMatches (hmeasured : regex.Measured text) :
    regex.Leftmost text (regex.allMatches text) := by
  have hahead (e : Match) : e.Ahead none := fun _ hstop => by cases hstop
  have h := matchesFrom_leftmost hmeasured (text.length + 1) none fun _ _ _ =>
    Nat.lt_of_lt_of_le (Nat.lt_succ_self _) (Nat.le_add_right _ _)
  exact ⟨fun m hm => (h.occurs m hm).1, h.apart, fun e he => h.leftmost e he (hahead e)⟩

/-- Of two leftmost lists, each has the matches of the other. -/
theorem Leftmost.mem_of_mem {ms' : List Match} (hmeasured : regex.Measured text)
    (h : regex.Leftmost text ms) (h' : regex.Leftmost text ms') (hm : m ∈ ms) : m ∈ ms' := by
  induction hn : m.start using Nat.strong_induction_on generalizing m ms ms' with
  | _ n ih =>
    have hoccurs := h.occurs m hm
    by_contra hnew
    obtain ⟨k, hk, hlt, hcovers⟩ := h'.leftmost m hoccurs hnew
    -- the match in its way is in the first list too, which keeps the two apart
    have hkms : k ∈ ms := ih k.start (hn ▸ hlt) h' h hk rfl
    have hne : k ≠ m := fun heq => Nat.lt_irrefl _ (heq ▸ hlt)
    have : Std.Symm fun a b : Match => b.Follows a ∨ a.Follows b := ⟨fun _ _ => Or.symm⟩
    have happart : ms.Pairwise fun a b => b.Follows a ∨ a.Follows b := h.apart.imp .inl
    rcases happart.forall hkms hm hne with hfollows | hfollows
    · exact hcovers hfollows
    · obtain ⟨-, hle, -⟩ := hmeasured m.start hoccurs.1 m hoccurs.2
      obtain ⟨hstop, -⟩ := Match.follows_iff.1 hfollows
      omega

/-- The leftmost matches without overlap are the ones that the search finds one after the other. -/
theorem leftmost_iff (hmeasured : regex.Measured text) :
    regex.Leftmost text ms ↔ ms = regex.allMatches text := by
  refine ⟨fun h => ?_, fun h => h ▸ leftmost_allMatches hmeasured⟩
  have hall := leftmost_allMatches hmeasured
  have hascending {l : List Match} (hl : regex.Leftmost text l) :
      l.Pairwise fun m later => m.stop < later.stop :=
    hl.apart.imp fun hfollows => (Match.follows_iff.1 hfollows).2
  have : Std.Irrefl fun m later : Match => m.stop < later.stop := ⟨fun _ => Nat.lt_irrefl _⟩
  have : Std.Asymm fun m later : Match => m.stop < later.stop := ⟨fun _ _ => Nat.lt_asymm⟩
  exact List.Pairwise.eq_of_mem_iff (hascending h) (hascending hall) fun m =>
    ⟨h.mem_of_mem hmeasured hall, hall.mem_of_mem hmeasured h⟩

end RuleSieve.Regex
