/-
  What a search finds.

  A thread succeeds if some of the threads it leads to accepts.  Searches go on from what was not tried
  before; what was tried and did not accept leads only to what was tried too, or waits to be tried.
  Hence a search fails just if none of its threads succeeds.
-/
import Mathlib.Logic.Relation
import RuleSieve.Proofs.Outcome
import RuleSieve.Regex.Matches

namespace RuleSieve.Regex

variable {program : Program} {text : Array Char} {tried : Array Bool} {t u : Thread}

/-! ## Steps -/

/-- The character before a place, if there is one. -/
def before (text : Array Char) (place : Nat) : Option Char :=
  if place = 0 then none else text[place - 1]?

/-- One step of a thread. -/
inductive Thread.Step (program : Program) (text : Array Char) (t : Thread) : Thread → Prop
  | char {set : CharSet} {next : Nat} {c : Char} (hinstr : program[t.pc]? = some (.char set next))
      (htext : text[t.place]? = some c) (hset : set.contains c = true) :
      t.Step program text { t with pc := next, place := t.place + 1 }
  | look {condition : Look} {next : Nat} (hinstr : program[t.pc]? = some (.look condition next))
      (hholds : condition.holds (before text t.place) text[t.place]? = true) :
      t.Step program text { t with pc := next }
  | save {slot next : Nat} (hinstr : program[t.pc]? = some (.save slot next)) :
      t.Step program text { t with pc := next, slots := (slot, t.place) :: t.slots }
  | first {first second : Nat} (hinstr : program[t.pc]? = some (.split first second)) :
      t.Step program text { t with pc := first }
  | second {first second : Nat} (hinstr : program[t.pc]? = some (.split first second)) :
      t.Step program text { t with pc := second }

theorem Thread.mem_next_iff : u ∈ t.next program text ↔ t.Step program text u := by
  constructor
  · intro h
    unfold Thread.next at h
    split at h
    · next hinstr =>
      split at h
      · next htext =>
        split at h
        · next hset =>
          cases List.mem_singleton.1 h
          exact .char hinstr htext hset
        · cases h
      · cases h
    · next condition target hinstr =>
      replace h : u ∈ if condition.holds (before text t.place) text[t.place]? = true then
          [{ t with pc := target }] else [] := h
      split at h
      · next hholds =>
        cases List.mem_singleton.1 h
        exact .look hinstr hholds
      · cases h
    · next hinstr =>
      cases List.mem_singleton.1 h
      exact .save hinstr
    · next hinstr =>
      rcases List.mem_pair.1 h with rfl | rfl
      · exact .first hinstr
      · exact .second hinstr
    · cases h
    · cases h
  · intro h
    unfold Thread.next
    cases h with
    | char hinstr htext hset => simp [hinstr, htext, hset]
    | look hinstr hholds =>
      rw [before] at hholds
      simp [hinstr, hholds]
    | save hinstr => simp [hinstr]
    | first hinstr => simp [hinstr]
    | second hinstr => simp [hinstr]

theorem Thread.Step.place_le (h : t.Step program text u) (hplace : t.place ≤ text.size) :
    u.place ≤ text.size := by
  cases h with
  | char _ htext _ => exact (Array.getElem?_eq_some_iff.1 htext).1
  | look | save | first | second => exact hplace

/-- Two threads that stand at the same instruction and the same place. -/
def Thread.SameSpot (t u : Thread) : Prop := t.pc = u.pc ∧ t.place = u.place

theorem Thread.SameSpot.accepts (h : t.SameSpot u) : t.accepts program = u.accepts program := by
  rw [Thread.accepts, Thread.accepts, h.1]

/-- Where a thread goes does not depend on what it remembers. -/
theorem Thread.SameSpot.step {t' : Thread} (h : t.SameSpot u) (ht : t.Step program text t') :
    ∃ u', u.Step program text u' ∧ t'.SameSpot u' := by
  obtain ⟨pc, place, slots⟩ := t
  obtain ⟨pc', place', slots'⟩ := u
  obtain ⟨rfl, rfl⟩ : pc = pc' ∧ place = place' := h
  cases ht with
  | char hinstr htext hset => exact ⟨_, .char hinstr htext hset, rfl, rfl⟩
  | look hinstr hholds => exact ⟨_, .look hinstr hholds, rfl, rfl⟩
  | save hinstr => exact ⟨_, .save hinstr, rfl, rfl⟩
  | first hinstr => exact ⟨_, .first hinstr, rfl, rfl⟩
  | second hinstr => exact ⟨_, .second hinstr, rfl, rfl⟩

/-- One thread leads to the other by steps of the program. -/
def Thread.LeadsTo (program : Program) (text : Array Char) : Thread → Thread → Prop :=
  Relation.ReflTransGen (Thread.Step program text)

/-- The thread leads to one that accepts. -/
def Thread.Succeeds (program : Program) (text : Array Char) (t : Thread) : Prop :=
  ∃ u, t.LeadsTo program text u ∧ u.accepts program = true

/-! ## Soundness -/

/-- What a search gives is remembered by an accepting thread that one of its threads leads to. -/
theorem run_sound {threads : List Thread} {slots : Slots}
    (h : run program text tried threads = some slots) :
    ∃ t ∈ threads, ∃ u, t.LeadsTo program text u ∧ u.accepts program = true ∧ u.slots = slots := by
  fun_induction run program text tried threads with
  | case1 => cases h
  | case2 tried t threads key hkey haccepts =>
    exact ⟨t, List.mem_cons_self, t, .refl, haccepts, Option.some.inj h⟩
  | case3 tried t threads key hkey haccepts ih =>
    obtain ⟨t', ht', u, hlead, hu⟩ := ih h
    rcases List.mem_append.1 ht' with hnext | hlater
    · exact ⟨t, List.mem_cons_self, u, .head (Thread.mem_next_iff.1 hnext) hlead, hu⟩
    · exact ⟨t', List.mem_cons_of_mem t hlater, u, hlead, hu⟩
  | case4 tried t threads key hkey ih =>
    obtain ⟨t', ht', hu⟩ := ih h
    exact ⟨t', List.mem_cons_of_mem t ht', hu⟩

/-- Threads that come later do not change what is found before. -/
theorem run_append {threads : List Thread} {slots : Slots} (later : List Thread)
    (h : run program text tried threads = some slots) :
    run program text tried (threads ++ later) = some slots := by
  fun_induction run program text tried threads with
  | case1 => cases h
  | case2 tried t threads key hkey haccepts =>
    rw [List.cons_append, run]
    exact (dif_pos hkey).trans ((if_pos haccepts).trans h)
  | case3 tried t threads key hkey haccepts ih =>
    rw [List.cons_append, run]
    refine (dif_pos hkey).trans ((if_neg haccepts).trans ?_)
    rw [← List.append_assoc]
    exact ih h
  | case4 tried t threads key hkey ih =>
    rw [List.cons_append, run]
    exact (dif_neg hkey).trans (ih h)

/-! ## Completeness -/

/-- The mark of a spot in a text of the given size. -/
def Thread.key (size : Nat) (t : Thread) : Nat := t.pc * (size + 1) + t.place

/-- The spot was tried, or is not in the program. -/
def Thread.Tried (size : Nat) (tried : Array Bool) (t : Thread) : Prop :=
  tried[t.key size]? ≠ some false

/-- What was tried did not accept, and leads to what was tried or waits among the threads. -/
def Covers (program : Program) (text : Array Char) (tried : Array Bool) (threads : List Thread) :
    Prop :=
  ∀ t : Thread, t.place ≤ text.size → t.Tried text.size tried →
    t.accepts program = false ∧
      ∀ u, t.Step program text u → u.Tried text.size tried ∨ ∃ v ∈ threads, v.SameSpot u

theorem Thread.SameSpot.key {size : Nat} (h : t.SameSpot u) : t.key size = u.key size := by
  rw [Thread.key, Thread.key, h.1, h.2]

theorem Thread.Tried.sameSpot {size : Nat} (ht : t.Tried size tried) (h : t.SameSpot u) :
    u.Tried size tried := by
  rw [Thread.Tried, ← h.key]
  exact ht

/-- Spots with the same mark are the same. -/
theorem Thread.sameSpot_of_key {size : Nat} (ht : t.place ≤ size) (hu : u.place ≤ size)
    (h : t.key size = u.key size) : t.SameSpot u := by
  unfold Thread.key at h
  have ht := Nat.lt_succ_of_le ht
  have hu := Nat.lt_succ_of_le hu
  have hpc : t.pc = u.pc := by
    have hdiv := congrArg (· / (size + 1)) h
    simpa [Nat.add_comm, Nat.add_mul_div_right, Nat.div_eq_of_lt ht, Nat.div_eq_of_lt hu] using hdiv
  rw [hpc] at h
  exact ⟨hpc, Nat.add_left_cancel h⟩

theorem Thread.tried_set_iff {size key : Nat} :
    t.Tried size (tried.setIfInBounds key true) ↔
      t.key size = key ∨ t.Tried size tried := by
  unfold Thread.Tried
  by_cases hkey : t.key size = key
  · rw [hkey, Array.getElem?_setIfInBounds_self]
    split <;> simp
  · rw [Array.getElem?_setIfInBounds_ne (Ne.symm hkey)]
    exact ⟨.inr, fun h => h.resolve_left hkey⟩

/-- Taking up a thread keeps the cover: its spot is tried, and where it goes waits. -/
theorem Covers.next {threads : List Thread} (hcovers : Covers program text tried (t :: threads))
    (hplace : t.place ≤ text.size) (haccepts : t.accepts program = false) :
    Covers program text (tried.setIfInBounds (t.key text.size) true)
      (t.next program text ++ threads) := by
  intro u hu htried
  rcases Thread.tried_set_iff.1 htried with hkey | htried
  · have hspot := Thread.sameSpot_of_key hu hplace hkey
    refine ⟨hspot.accepts.trans haccepts, fun v hv => .inr ?_⟩
    obtain ⟨t', ht', hv'⟩ := hspot.step hv
    exact ⟨t', List.mem_append_left _ (Thread.mem_next_iff.2 ht'), hv'.1.symm, hv'.2.symm⟩
  · obtain ⟨hfails, hstep⟩ := hcovers u hu htried
    refine ⟨hfails, fun v hv => ?_⟩
    rcases hstep v hv with hv | ⟨w, hw, hspot⟩
    · exact .inl (Thread.tried_set_iff.2 (.inr hv))
    · rcases List.mem_cons.1 hw with rfl | hw
      · exact .inl (Thread.tried_set_iff.2 (.inl hspot.key.symm))
      · exact .inr ⟨w, List.mem_append_right _ hw, hspot⟩

/-- Leaving out a thread that was tried keeps the cover. -/
theorem Covers.tail {threads : List Thread} (hcovers : Covers program text tried (t :: threads))
    (ht : t.Tried text.size tried) : Covers program text tried threads := by
  intro u hu htried
  obtain ⟨hfails, hstep⟩ := hcovers u hu htried
  refine ⟨hfails, fun v hv => ?_⟩
  rcases hstep v hv with hv | ⟨w, hw, hspot⟩
  · exact .inl hv
  · rcases List.mem_cons.1 hw with rfl | hw
    · exact .inl (ht.sameSpot hspot)
    · exact .inr ⟨w, hw, hspot⟩

/-- A search that fails has tried all its threads, and leaves nothing waiting. -/
theorem run_covers {threads : List Thread} (h : run program text tried threads = none)
    (hcovers : Covers program text tried threads) (hplaces : ∀ t ∈ threads, t.place ≤ text.size) :
    ∃ tried', Covers program text tried' [] ∧
      ∀ t : Thread, t.Tried text.size tried ∨ t ∈ threads → t.Tried text.size tried' := by
  fun_induction run program text tried threads with
  | case1 tried => exact ⟨tried, hcovers, fun t ht => ht.resolve_right List.not_mem_nil⟩
  | case2 => cases h
  | case3 tried t threads key hkey haccepts ih =>
    have hplace := hplaces t List.mem_cons_self
    have hnext : ∀ u ∈ t.next program text ++ threads, u.place ≤ text.size := by
      intro u hu
      rcases List.mem_append.1 hu with hu | hu
      · exact (Thread.mem_next_iff.1 hu).place_le hplace
      · exact hplaces u (List.mem_cons_of_mem t hu)
    obtain ⟨tried', hcovers', htried'⟩ :=
      ih h (hcovers.next hplace (Bool.eq_false_iff.2 haccepts)) hnext
    refine ⟨tried', hcovers', fun u hu => htried' u ?_⟩
    rcases hu with hu | hu
    · exact .inl (Thread.tried_set_iff.2 (.inr hu))
    · rcases List.mem_cons.1 hu with rfl | hu
      · exact .inl (Thread.tried_set_iff.2 (.inl rfl))
      · exact .inr (List.mem_append_right _ hu)
  | case4 tried t threads key hkey ih =>
    obtain ⟨tried', hcovers', htried'⟩ :=
      ih h (hcovers.tail hkey) fun u hu => hplaces u (List.mem_cons_of_mem t hu)
    refine ⟨tried', hcovers', fun u hu => htried' u ?_⟩
    rcases hu with hu | hu
    · exact .inl hu
    · rcases List.mem_cons.1 hu with rfl | hu
      · exact .inl hkey
      · exact .inr hu

/-- What was tried leads only to what was tried, if nothing waits. -/
theorem Covers.not_succeeds (hcovers : Covers program text tried []) (hplace : t.place ≤ text.size)
    (ht : t.Tried text.size tried) : ¬ t.Succeeds program text := by
  have hleads {u : Thread} (hlead : t.LeadsTo program text u) :
      u.place ≤ text.size ∧ u.Tried text.size tried := by
    induction hlead with
    | refl => exact ⟨hplace, ht⟩
    | tail _ hstep ih =>
      refine ⟨hstep.place_le ih.1, ?_⟩
      rcases (hcovers _ ih.1 ih.2).2 _ hstep with h | ⟨w, hw, -⟩
      · exact h
      · cases hw
  rintro ⟨u, hlead, haccepts⟩
  obtain ⟨hu, htried⟩ := hleads hlead
  rw [(hcovers u hu htried).1] at haccepts
  cases haccepts

/-- Nothing was tried at the start of a search. -/
theorem covers_replicate (program : Program) (text : Array Char) (threads : List Thread) :
    Covers program text (Array.replicate (program.size * (text.size + 1)) false) threads := by
  intro t hplace ht
  have hpc : program[t.pc]? = none := by
    rw [Array.getElem?_eq_none_iff]
    by_contra hlt
    have hle := Nat.mul_le_mul_right (text.size + 1) (Nat.not_le.1 hlt)
    refine ht ((Array.getElem?_replicate).trans (if_pos ?_))
    rw [Nat.succ_mul] at hle
    rw [Thread.key]
    omega
  refine ⟨by rw [Thread.accepts, hpc], fun u hu => ?_⟩
  cases hu with
  | char hinstr | look hinstr | save hinstr | first hinstr | second hinstr =>
    rw [hpc] at hinstr
    cases hinstr

/-- A search that fails on its own has no thread that succeeds. -/
theorem not_succeeds_of_run {threads : List Thread}
    (h : run program text (Array.replicate (program.size * (text.size + 1)) false) threads = none)
    (hplaces : ∀ t ∈ threads, t.place ≤ text.size) (ht : t ∈ threads) :
    ¬ t.Succeeds program text := by
  obtain ⟨tried, hcovers, htried⟩ := run_covers h (covers_replicate program text threads) hplaces
  exact hcovers.not_succeeds (hplaces t ht) (htried t (.inr ht))

/-! ## Machines -/

/-- The thread with which a machine starts at a place. -/
def Machine.thread (m : Machine) (place : Nat) : Thread := ⟨m.entry, place, []⟩

/-- Does a match of the machine start at the place? -/
def Machine.StartsAt (m : Machine) (text : Array Char) (place : Nat) : Prop :=
  (m.thread place).Succeeds m.program text

theorem Machine.searchFrom_zero (m : Machine) (text : Array Char) :
    m.searchFrom text 0 =
      run m.program text (Array.replicate (m.program.size * (text.size + 1)) false)
        ((List.range (text.size + 1)).map m.thread) := rfl

/-- What a search from the start of the text finds, an accepting thread remembers. -/
theorem Machine.searchFrom_sound {m : Machine} {slots : Slots}
    (h : m.searchFrom text 0 = some slots) :
    ∃ place ≤ text.size, ∃ u, (m.thread place).LeadsTo m.program text u ∧
      u.accepts m.program = true ∧ u.slots = slots := by
  rw [m.searchFrom_zero] at h
  obtain ⟨t, ht, hu⟩ := run_sound h
  obtain ⟨place, hplace, rfl⟩ := List.mem_map.1 ht
  exact ⟨place, Nat.le_of_lt_succ (List.mem_range.1 hplace), hu⟩

/-- A search from the start of the text finds something just if a match starts somewhere. -/
theorem Machine.isSome_searchFrom_iff (m : Machine) (text : Array Char) :
    (m.searchFrom text 0).isSome = true ↔ ∃ place ≤ text.size, m.StartsAt text place := by
  constructor
  · intro h
    obtain ⟨slots, hslots⟩ := Option.isSome_iff_exists.1 h
    obtain ⟨place, hplace, u, hlead, haccepts, -⟩ := m.searchFrom_sound hslots
    exact ⟨place, hplace, u, hlead, haccepts⟩
  · rintro ⟨place, hplace, hstarts⟩
    rw [m.searchFrom_zero, ← Option.not_isNone, Bool.not_eq_true', Bool.eq_false_iff]
    intro hnone
    refine not_succeeds_of_run (Option.isNone_iff_eq_none.1 hnone) (fun t ht => ?_)
      (List.mem_map.2 ⟨place, List.mem_range.2 (Nat.lt_succ_of_le hplace), rfl⟩) hstarts
    obtain ⟨place, hplace, rfl⟩ := List.mem_map.1 ht
    exact Nat.le_of_lt_succ (List.mem_range.1 hplace)

/-- If a match starts at the start of the text, the match that is found first starts there. -/
theorem Machine.searchFrom_of_startsAt_zero {m : Machine} (h : m.StartsAt text 0) :
    ∃ u, (m.thread 0).LeadsTo m.program text u ∧ u.accepts m.program = true ∧
      m.searchFrom text 0 = some u.slots := by
  cases hfirst : run m.program text (Array.replicate (m.program.size * (text.size + 1)) false)
      [m.thread 0] with
  | none =>
    refine absurd h (not_succeeds_of_run hfirst (fun t ht => ?_) List.mem_cons_self)
    rw [List.mem_singleton.1 ht]
    exact Nat.zero_le _
  | some slots =>
    obtain ⟨t, ht, u, hlead, haccepts, rfl⟩ := run_sound hfirst
    cases List.mem_singleton.1 ht
    refine ⟨u, hlead, haccepts, ?_⟩
    rw [m.searchFrom_zero, List.range_succ_eq_map, List.map_cons]
    exact run_append _ hfirst

end RuleSieve.Regex
