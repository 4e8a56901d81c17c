/-
  Where a match stops.

  The instructions of an expression are written behind the end of the match, and none of them accepts
  or leads past it (`Grown`).  So a thread can accept only after it remembered, in slot one, the place
  where it is.
-/
import RuleSieve.Proofs.Emission

namespace RuleSieve.Regex

variable {prog prog' : Program} {instr : Instr}

/-! ## Programs that grow -/

/-- Does the instruction neither accept nor go on where a match is accepted? -/
def Instr.Inner : Instr → Prop
  | .char _ next | .look _ next | .save _ next => next ≠ 0
  | .split first second => first ≠ 0 ∧ second ≠ 0
  | .accept => False

/-- A choice between inner instructions is inner. -/
theorem Instr.inner_choose {enter leave : Nat} (greedy : Bool) (henter : enter ≠ 0)
    (hleave : leave ≠ 0) : (Instr.choose greedy enter leave).Inner := by
  cases greedy
  · exact ⟨hleave, henter⟩
  · exact ⟨henter, hleave⟩

/-- The second program is the first one with inner instructions behind it. -/
structure Grown (prog prog' : Program) : Prop where
  size_le : prog.size ≤ prog'.size
  kept : ∀ i < prog.size, prog'[i]? = prog[i]?
  inner : ∀ i instr, prog.size ≤ i → prog'[i]? = some instr → instr.Inner

namespace Grown

theorem refl (prog : Program) : Grown prog prog := by
  refine ⟨Nat.le_refl _, fun _ _ => rfl, fun i instr hi h => ?_⟩
  rw [Array.getElem?_eq_none hi] at h
  cases h

/-- A program that grew twice has grown. -/
theorem trans {prog'' : Program} (h : Grown prog prog') (h' : Grown prog' prog'') :
    Grown prog prog'' := by
  refine ⟨Nat.le_trans h.size_le h'.size_le, fun i hi => ?_, fun i instr hi hinstr => ?_⟩
  · exact (h'.kept i (Nat.lt_of_lt_of_le hi h.size_le)).trans (h.kept i hi)
  · rcases Nat.lt_or_ge i prog'.size with hlt | hge
    · exact h.inner i instr hi ((h'.kept i hlt).symm.trans hinstr)
    · exact h'.inner i instr hge hinstr

/-- A program grows by inner instructions. -/
theorem push (h : Grown prog prog') (hinstr : instr.Inner) : Grown prog (prog'.push instr) := by
  refine h.trans ⟨?_, getElem?_push_lt prog' instr, fun i found hi hfound => ?_⟩
  · rw [Array.size_push]
    exact Nat.le_succ _
  · rw [Array.getElem?_push] at hfound
    split at hfound
    · cases hfound
      exact hinstr
    · rw [Array.getElem?_eq_none hi] at hfound
      cases hfound

/-- The instruction that the body is written behind may be replaced by an inner one. -/
theorem around {hole : Instr} (h : Grown (prog.push hole) prog') (hinstr : instr.Inner) :
    Grown prog (prog'.setIfInBounds prog.size instr) := by
  have hsize : prog.size + 1 ≤ prog'.size := by
    rw [← Array.size_push hole]
    exact h.size_le
  refine ⟨?_, fun i hi => ?_, fun i found hi hfound => ?_⟩
  · rw [Array.size_setIfInBounds]
    exact Nat.le_of_succ_le hsize
  · rw [Array.getElem?_setIfInBounds_ne (Nat.ne_of_gt hi), h.kept i ?_, getElem?_push_lt _ _ i hi]
    rw [Array.size_push]
    exact Nat.lt_succ_of_lt hi
  · rcases Nat.eq_or_lt_of_le hi with rfl | hlt
    · rw [Array.getElem?_setIfInBounds_self_of_lt hsize] at hfound
      cases hfound
      exact hinstr
    · rw [Array.getElem?_setIfInBounds_ne (Nat.ne_of_lt hlt)] at hfound
      refine h.inner i found ?_ hfound
      rw [Array.size_push]
      exact hlt

end Grown

/-- The emitter adds inner instructions only, and does not enter where a match is accepted. -/
def Emitter.Grows (body : Emitter) : Prop :=
  ∀ (next : Nat) (prog : Program), next ≠ 0 → prog.size ≠ 0 →
    (body next prog).1 ≠ 0 ∧ Grown prog (body next prog).2

/-- A program that has grown is not empty if it was not. -/
theorem Grown.size_ne (h : Grown prog prog') (hprog : prog.size ≠ 0) : prog'.size ≠ 0 :=
  Nat.ne_of_gt (Nat.lt_of_lt_of_le (Nat.pos_of_ne_zero hprog) h.size_le)

namespace Emitter.Grows

variable {body : Emitter} {next : Nat}

theorem copies (h : body.Grows) (count : Nat) : (body.copies count).Grows := by
  induction count with
  | zero => exact fun next prog hnext _ => ⟨hnext, .refl prog⟩
  | succ count ih =>
    intro next prog hnext hprog
    obtain ⟨hentry, hgrown⟩ := h next prog hnext hprog
    obtain ⟨hentry', hgrown'⟩ := ih _ _ hentry (hgrown.size_ne hprog)
    exact ⟨hentry', hgrown.trans hgrown'⟩

/-- Leaving early needs a place to go on at that is not where a match is accepted. -/
theorem atMost (h : body.Grows) (greedy : Bool) (count : Nat) {entry : Nat} (hentry : entry ≠ 0)
    (hnext : next ≠ 0) (hprog : prog.size ≠ 0) :
    (body.atMost greedy next count entry prog).1 ≠ 0 ∧
      Grown prog (body.atMost greedy next count entry prog).2 := by
  induction count generalizing entry prog with
  | zero => exact ⟨hentry, .refl prog⟩
  | succ count ih =>
    obtain ⟨henter, hgrown⟩ := h entry prog hentry hprog
    have hsize := hgrown.size_ne hprog
    have hchoice := hgrown.push (Instr.inner_choose greedy henter hnext)
    obtain ⟨hentry', hgrown'⟩ := ih hsize (hchoice.size_ne hprog)
    exact ⟨hentry', hchoice.trans hgrown'⟩

theorem plus (h : body.Grows) (greedy : Bool) : (body.plus greedy).Grows := by
  intro next prog hnext hprog
  obtain ⟨henter, hgrown⟩ := h prog.size (prog.push .accept) hprog (by simp)
  exact ⟨henter, hgrown.around (Instr.inner_choose greedy henter hnext)⟩

/-- Both forms of a loop grow the program by inner instructions. -/
theorem star (h : body.Grows) (greedy canBeEmpty : Bool) : (body.star greedy canBeEmpty).Grows := by
  intro next prog hnext hprog
  cases canBeEmpty with
  | true =>
    obtain ⟨henter, hgrown⟩ := h.plus greedy next prog hnext hprog
    exact ⟨hgrown.size_ne hprog, hgrown.push (Instr.inner_choose greedy henter hnext)⟩
  | false => exact ⟨hprog, (h.plus greedy next prog hnext hprog).2⟩

end Emitter.Grows

/-- The instructions of an expression are inner ones. -/
theorem Node.emit_grows (node : Node) : Emitter.Grows node.emit := by
  induction node with
  | empty => exact fun next prog hnext _ => ⟨hnext, .refl prog⟩
  | char set | look condition =>
    intro next prog hnext hprog
    refine ⟨hprog, (Grown.refl prog).push ?_⟩
    exact hnext
  | capture index body ih =>
    intro next prog hnext hprog
    have hclose : Grown prog (prog.push (.save (2 * index + 1) next)) := (Grown.refl prog).push hnext
    obtain ⟨hentry, hgrown⟩ := ih _ _ hprog (hclose.size_ne hprog)
    have hbody := hclose.trans hgrown
    refine ⟨hbody.size_ne hprog, hbody.push ?_⟩
    exact hentry
  | seq first second ihFirst ihSecond =>
    intro next prog hnext hprog
    obtain ⟨hmiddle, hsecond⟩ := ihSecond next prog hnext hprog
    obtain ⟨hentry, hfirst⟩ := ihFirst _ _ hmiddle (hsecond.size_ne hprog)
    exact ⟨hentry, hsecond.trans hfirst⟩
  | alt first second ihFirst ihSecond =>
    intro next prog hnext hprog
    obtain ⟨hleft, hfirst⟩ := ihFirst next prog hnext hprog
    obtain ⟨hright, hsecond⟩ := ihSecond next _ hnext (hfirst.size_ne hprog)
    have hboth := hfirst.trans hsecond
    refine ⟨hboth.size_ne hprog, hboth.push ?_⟩
    exact ⟨hleft, hright⟩
  | repeated min max greedy body ih =>
    intro next prog hnext hprog
    match min, max with
    | 0, none => exact Emitter.Grows.star ih greedy body.canBeEmpty next prog hnext hprog
    | min + 1, none =>
      obtain ⟨hplus, hgrown⟩ := Emitter.Grows.plus ih greedy next prog hnext hprog
      obtain ⟨hentry, hgrown'⟩ := Emitter.Grows.copies ih min _ _ hplus (hgrown.size_ne hprog)
      exact ⟨hentry, hgrown.trans hgrown'⟩
    | min, some max =>
      obtain ⟨hmost, hgrown⟩ := Emitter.Grows.atMost ih greedy (max - min) hnext hnext hprog
      obtain ⟨hentry, hgrown'⟩ := Emitter.Grows.copies ih min _ _ hmost (hgrown.size_ne hprog)
      cases min <;> exact ⟨hentry, hgrown.trans hgrown'⟩

/-! ## The end of a match -/

variable {text : Array Char} {t u : Thread} {node : Node}

/-- The instructions of an expression stand behind the end of its machine. -/
theorem Node.grown_inside (node : Node) : node.inside.1 ≠ 0 ∧ Grown ending node.inside.2 :=
  node.emit_grows 1 ending Nat.one_ne_zero (Nat.succ_ne_zero 1)

/-- Only the first two instructions are not inner ones. -/
theorem Node.instr_cases {i : Nat} (h : node.inside.2[i]? = some instr) :
    instr.Inner ∨ i = 0 ∧ instr = .accept ∨ instr = .save 1 0 := by
  obtain ⟨-, hgrown⟩ := node.grown_inside
  match i with
  | 0 =>
    rw [hgrown.kept 0 Nat.zero_lt_two] at h
    exact .inr (.inl ⟨rfl, (Option.some.inj h).symm⟩)
  | 1 =>
    rw [hgrown.kept 1 Nat.one_lt_two] at h
    exact .inr (.inr (Option.some.inj h).symm)
  | i + 2 => exact .inl (hgrown.inner _ instr (Nat.le_add_left 2 i) h)

/-- A match is accepted at one place of the program only. -/
theorem Node.pc_of_accepts (h : u.accepts node.inside.2 = true) : u.pc = 0 := by
  have haccept : node.inside.2[u.pc]? = some .accept := by
    unfold Thread.accepts at h
    split at h
    · assumption
    · cases h
  rcases node.instr_cases haccept with h | ⟨hpc, -⟩ | h
  · exact absurd h id
  · exact hpc
  · cases h

/-- A thread gets to where a match is accepted by remembering its place. -/
theorem Node.lookup_of_step (hstep : t.Step node.inside.2 text u) (hpc : u.pc = 0) :
    u.slots.lookup 1 = some u.place := by
  have hsave {instr : Instr} (hinstr : node.inside.2[t.pc]? = some instr) (hend : ¬ instr.Inner)
      (hstays : instr ≠ .accept) : instr = .save 1 0 := by
    rcases node.instr_cases hinstr with h | ⟨-, h⟩ | h
    · exact absurd h hend
    · exact absurd h hstays
    · exact h
  cases hstep with
  | char hinstr | look hinstr => cases hsave hinstr (fun h => h hpc) (by simp)
  | first hinstr => cases hsave hinstr (fun h => h.1 hpc) (by simp)
  | second hinstr => cases hsave hinstr (fun h => h.2 hpc) (by simp)
  | save hinstr =>
    cases hsave hinstr (fun h => h hpc) (by simp)
    rfl

/-- No step goes back in the text. -/
theorem Thread.Step.le_place (h : t.Step prog text u) : t.place ≤ u.place := by
  cases h with
  | char => exact Nat.le_succ _
  | look | save | first | second => exact Nat.le_refl _

/-- A thread goes through the text from the left to the right, and does not leave it. -/
theorem Thread.LeadsTo.places (h : t.LeadsTo prog text u) (hplace : t.place ≤ text.size) :
    t.place ≤ u.place ∧ u.place ≤ text.size := by
  induction h with
  | refl => exact ⟨Nat.le_refl _, hplace⟩
  | tail _ hstep ih => exact ⟨Nat.le_trans ih.1 hstep.le_place, hstep.place_le ih.2⟩

/-- What a match that starts at a place remembers: the place, and where it stops, which is there or
    later in the text. -/
theorem Node.extent (h : node.Numbered) {place : Nat} (hplace : place ≤ text.size)
    (hlead : (node.machine.thread place).LeadsTo node.machine.program text u)
    (haccepts : u.accepts node.machine.program = true) :
    (Match.ofSlots u.slots).start = place ∧ place ≤ (Match.ofSlots u.slots).stop ∧
      (Match.ofSlots u.slots).stop ≤ text.size := by
  have hinside := node.emitted_inside h
  have hstop : u.slots.lookup 1 = some u.place := by
    obtain ⟨v, hstep, hlead⟩ := Thread.exists_step (node.not_accepts_start place) haccepts hlead
    obtain rfl := (Thread.step_save_iff (node.machine_start place)).1 hstep
    obtain ⟨hlead, hpc, -⟩ := hinside.closed.leadsTo (getElem?_push_lt _ _) hinside.entry_lt hlead
    have haccepts' : u.accepts node.inside.2 = true := by
      rw [Thread.accepts, ← getElem?_push_lt _ (.save 0 node.inside.1) _ hpc]
      exact haccepts
    have hzero := Node.pc_of_accepts haccepts'
    rcases hlead.cases_tail with heq | ⟨w, -, hstep⟩
    · rw [heq] at hzero
      exact absurd hzero node.grown_inside.1
    · exact Node.lookup_of_step hstep hzero
  rw [Match.ofSlots, node.lookup_start h hlead haccepts, hstop]
  exact ⟨rfl, Thread.LeadsTo.places hlead hplace⟩

end RuleSieve.Regex
