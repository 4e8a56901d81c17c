/-
  Which match a search finds first.

  What was tried without success leads nowhere, so its marks make no difference to the threads that
  wait behind it (`run_congr`).  Hence a search finds what is found, on its own, at the first place
  where a match starts at all (`Machine.searchFrom_eq`).
-/
import RuleSieve.Proofs.Reachability

namespace RuleSieve.Regex

variable {program : Program} {text : Array Char} {tried tried' : Array Bool} {t u : Thread}

/-! ## One round of a search -/

/-- A thread at a spot that was tried is left out. -/
theorem run_of_tried (h : t.Tried text.size tried) (threads : List Thread) :
    run program text tried (t :: threads) = run program text tried threads := by
  rw [run]
  exact dif_neg h

/-- A thread at a spot that was not tried accepts, or makes way for the threads that follow it. -/
theorem run_of_not_tried (h : ¬ t.Tried text.size tried) (threads : List Thread) :
    run program text tried (t :: threads) =
      if t.accepts program then some t.slots
      else run program text (tried.setIfInBounds (t.key text.size) true)
        (t.next program text ++ threads) := by
  rw [run]
  exact dif_pos (not_not.1 h)

/-- Places do not leave the text. -/
theorem Thread.place_le_of_mem_next (h : u ∈ t.next program text) (ht : t.place ≤ text.size) :
    u.place ≤ text.size := (Thread.mem_next_iff.1 h).place_le ht

/-! ## Marks that make no difference -/

/-- The marks differ at most at spots that do not succeed. -/
def MarksAgree (program : Program) (text : Array Char) (tried tried' : Array Bool) : Prop :=
  ∀ t : Thread, t.place ≤ text.size → t.Succeeds program text →
    (t.Tried text.size tried ↔ t.Tried text.size tried')

namespace MarksAgree

theorem refl (tried : Array Bool) : MarksAgree program text tried tried := fun _ _ _ => .rfl

theorem symm (h : MarksAgree program text tried tried') : MarksAgree program text tried' tried :=
  fun t hplace hlive => (h t hplace hlive).symm

theorem trans {tried'' : Array Bool} (h : MarksAgree program text tried tried')
    (h' : MarksAgree program text tried' tried'') : MarksAgree program text tried tried'' :=
  fun t hplace hlive => (h t hplace hlive).trans (h' t hplace hlive)

theorem set (h : MarksAgree program text tried tried') (key : Nat) :
    MarksAgree program text (tried.setIfInBounds key true) (tried'.setIfInBounds key true) := by
  intro t hplace hlive
  rw [Thread.tried_set_iff, Thread.tried_set_iff, h t hplace hlive]

end MarksAgree

theorem Thread.SameSpot.leadsTo {t' : Thread} (h : t.SameSpot u) (hlead : t.LeadsTo program text t') :
    ∃ u', u.LeadsTo program text u' ∧ t'.SameSpot u' := by
  induction hlead with
  | refl => exact ⟨u, .refl, h⟩
  | tail _ hstep ih =>
    obtain ⟨v, hv, hspot⟩ := ih
    obtain ⟨w, hw, hspot⟩ := hspot.step hstep
    exact ⟨w, hv.tail hw, hspot⟩

/-- Whether a thread succeeds does not depend on what it remembers. -/
theorem Thread.SameSpot.succeeds (h : t.SameSpot u) (ht : t.Succeeds program text) :
    u.Succeeds program text := by
  obtain ⟨t', hlead, haccepts⟩ := ht
  obtain ⟨u', hlead, hspot⟩ := h.leadsTo hlead
  exact ⟨u', hlead, hspot.accepts.symm.trans haccepts⟩

/-- A mark at a spot that does not succeed makes no difference. -/
theorem marksAgree_set_of_not_succeeds (hdead : ¬ t.Succeeds program text)
    (hplace : t.place ≤ text.size) (tried : Array Bool) :
    MarksAgree program text tried (tried.setIfInBounds (t.key text.size) true) := by
  intro u hu hlive
  rw [Thread.tried_set_iff, or_iff_right]
  exact fun hkey => hdead ((Thread.sameSpot_of_key hu hplace hkey).succeeds hlive)

/-- Threads that do not succeed leave only marks that make no difference. -/
theorem run_dead {dead : List Thread} (tried : Array Bool)
    (hdead : ∀ t ∈ dead, t.place ≤ text.size ∧ ¬ t.Succeeds program text) (threads : List Thread) :
    ∃ tried', MarksAgree program text tried tried' ∧ untried tried' ≤ untried tried ∧
      run program text tried (dead ++ threads) = run program text tried' threads := by
  fun_induction run program text tried dead with
  | case1 tried => exact ⟨tried, .refl tried, Nat.le_refl _, rfl⟩
  | case2 tried t dead key hkey haccepts =>
    exact absurd ⟨t, .refl, haccepts⟩ (hdead t List.mem_cons_self).2
  | case3 tried t dead key hkey haccepts ih =>
    obtain ⟨hplace, hfails⟩ := hdead t List.mem_cons_self
    have hnext : ∀ u ∈ t.next program text ++ dead,
        u.place ≤ text.size ∧ ¬ u.Succeeds program text := by
      intro u hu
      rcases List.mem_append.1 hu with hu | hu
      · refine ⟨Thread.place_le_of_mem_next hu hplace, ?_⟩
        rintro ⟨v, hlead, hv⟩
        exact hfails ⟨v, .head (Thread.mem_next_iff.1 hu) hlead, hv⟩
      · exact hdead u (List.mem_cons_of_mem t hu)
    obtain ⟨tried', hagree, hle, hrun⟩ := ih hnext
    refine ⟨tried', (marksAgree_set_of_not_succeeds hfails hplace tried).trans hagree,
      Nat.le_trans hle (Nat.le_of_lt (untried_set_lt hkey)), ?_⟩
    rw [List.cons_append, run_of_not_tried (not_not.2 hkey), if_neg haccepts, ← List.append_assoc]
    exact hrun
  | case4 tried t dead key hkey ih =>
    obtain ⟨tried', hagree, hle, hrun⟩ := ih fun u hu => hdead u (List.mem_cons_of_mem t hu)
    refine ⟨tried', hagree, hle, ?_⟩
    rw [List.cons_append, run_of_tried hkey]
    exact hrun

/-- What a search finds hangs only on the marks of the spots that succeed. -/
theorem run_congr {tried tried' : Array Bool} (h : MarksAgree program text tried tried')
    (threads : List Thread) (hplaces : ∀ t ∈ threads, t.place ≤ text.size) :
    run program text tried threads = run program text tried' threads := by
  match threads with
  | [] => rw [run, run]
  | t :: threads =>
    obtain ⟨hplace, hrest⟩ := List.forall_mem_cons.1 hplaces
    by_cases hlive : t.Succeeds program text
    · by_cases ht : t.Tried text.size tried
      · rw [run_of_tried ht, run_of_tried ((h t hplace hlive).1 ht)]
        exact run_congr h threads hrest
      · rw [run_of_not_tried ht, run_of_not_tried (mt (h t hplace hlive).2 ht)]
        refine if_congr Iff.rfl rfl (run_congr (h.set _) (t.next program text ++ threads) ?_)
        intro u hu
        rcases List.mem_append.1 hu with hu | hu
        · exact Thread.place_le_of_mem_next hu hplace
        · exact hrest u hu
    · -- on both sides the thread fails, and leaves the threads behind it to marks that still agree
      have hdead : ∀ u ∈ [t], u.place ≤ text.size ∧ ¬ u.Succeeds program text := by
        rintro u hu
        rw [List.mem_singleton.1 hu]
        exact ⟨hplace, hlive⟩
      obtain ⟨left, hleft, hle, hrun⟩ := run_dead tried hdead threads
      obtain ⟨right, hright, -, hrun'⟩ := run_dead tried' hdead threads
      rw [← List.singleton_append, hrun, hrun']
      exact run_congr (hleft.symm.trans (h.trans hright)) threads hrest
termination_by (untried tried, threads.length)
decreasing_by
  · exact Prod.Lex.right _ (Nat.lt_succ_self _)
  · exact Prod.Lex.left _ _ (untried_set_lt (not_not.1 ht))
  · exact Prod.Lex.right' _ hle (Nat.lt_succ_self _)

/-! ## Machines -/

variable {m : Machine} {start place : Nat}

/-- What is found at a place, if nothing was tried before. -/
def Machine.slotsAt (m : Machine) (text : Array Char) (place : Nat) : Option Slots :=
  run m.program text (Array.replicate (m.program.size * (text.size + 1)) false) [m.thread place]

theorem Machine.slotsAt_sound {slots : Slots} (h : m.slotsAt text place = some slots) :
    ∃ u, (m.thread place).LeadsTo m.program text u ∧ u.accepts m.program = true ∧
      u.slots = slots := by
  obtain ⟨t, ht, hu⟩ := run_sound h
  rwa [List.mem_singleton.1 ht] at hu

theorem Machine.not_startsAt_of_slotsAt (hplace : place ≤ text.size)
    (h : m.slotsAt text place = none) : ¬ m.StartsAt text place := by
  refine not_succeeds_of_run h (fun t ht => ?_) List.mem_cons_self
  rw [List.mem_singleton.1 ht]
  exact hplace

/-- A search that goes through places in turn stops at the first one where something is found. -/
theorem Machine.run_places (places : List Nat) (hplaces : ∀ place ∈ places, place ≤ text.size) :
    run m.program text (Array.replicate (m.program.size * (text.size + 1)) false)
      (places.map m.thread) = places.findSome? (m.slotsAt text) := by
  induction places with
  | nil => rw [List.map_nil, run, List.findSome?_nil]
  | cons place places ih =>
    obtain ⟨hplace, hplaces⟩ := List.forall_mem_cons.1 hplaces
    rw [List.findSome?_cons, List.map_cons, ← List.singleton_append]
    cases hfirst : m.slotsAt text place with
    | some slots => exact run_append _ hfirst
    | none =>
      have hdead : ∀ t ∈ [m.thread place], t.place ≤ text.size ∧ ¬ t.Succeeds m.program text := by
        intro t ht
        rw [List.mem_singleton.1 ht]
        exact ⟨hplace, Machine.not_startsAt_of_slotsAt hplace hfirst⟩
      obtain ⟨tried', hagree, -, hrun⟩ := run_dead _ hdead (places.map m.thread)
      rw [hrun, ← run_congr hagree _ (fun t ht => ?_), ih hplaces]
      obtain ⟨place, hplace, rfl⟩ := List.mem_map.1 ht
      exact hplaces place hplace

/-- A search finds what is found at the first place where something is. -/
theorem Machine.searchFrom_eq (m : Machine) (text : Array Char) (start : Nat) :
    m.searchFrom text start =
      ((List.range (text.size + 1)).drop start).findSome? (m.slotsAt text) := by
  refine Machine.run_places _ fun place hplace => ?_
  exact Nat.le_of_lt_succ (List.mem_range.1 (List.mem_of_mem_drop hplace))

end RuleSieve.Regex
