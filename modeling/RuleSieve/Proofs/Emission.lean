/-
  Programs that keep to themselves.

  The instructions of an expression go on only within the program they are written into.  Hence a
  thread that is in the program of an expression stays there, whatever is written behind it.  The
  place where a match starts is remembered in slot zero, which belongs to no group of the pattern, so
  a thread keeps it to the end.
-/
import RuleSieve.Proofs.Reachability

namespace RuleSieve.Regex

variable {prog : Program} {size : Nat} {instr : Instr}

/-! ## Closed programs -/

/-- Does the instruction go on within a program of the given size, without remembering where the match
    starts? -/
def Instr.Within (size : Nat) : Instr → Prop
  | .char _ next | .look _ next => next < size
  | .save slot next => slot ≠ 0 ∧ next < size
  | .split first second => first < size ∧ second < size
  | .accept => True

/-- Places within a program are within a longer one. -/
theorem Instr.Within.mono {size' : Nat} (h : instr.Within size) (hle : size ≤ size') :
    instr.Within size' := by
  cases instr with
  | char | look => exact Nat.lt_of_lt_of_le h hle
  | save => exact ⟨h.1, Nat.lt_of_lt_of_le h.2 hle⟩
  | split => exact ⟨Nat.lt_of_lt_of_le h.1 hle, Nat.lt_of_lt_of_le h.2 hle⟩
  | accept => trivial

theorem Instr.within_choose {enter leave : Nat} (greedy : Bool) (henter : enter < size)
    (hleave : leave < size) : (Instr.choose greedy enter leave).Within size := by
  cases greedy
  · exact ⟨hleave, henter⟩
  · exact ⟨henter, hleave⟩

/-- Do all instructions go on within the program? -/
def Closed (prog : Program) : Prop :=
  ∀ (i : Nat) (instr : Instr), prog[i]? = some instr → instr.Within prog.size

/-- An instruction may be added to a program if it names places of the program, itself among
    them. -/
theorem Closed.push (h : Closed prog) (hinstr : instr.Within (prog.size + 1)) :
    Closed (prog.push instr) := by
  intro i found hfound
  rw [Array.size_push]
  rw [Array.getElem?_push] at hfound
  split at hfound
  · cases hfound
    exact hinstr
  · exact (h i found hfound).mono (Nat.le_succ _)

/-- An instruction may be replaced by one that names places of the program. -/
theorem Closed.set (h : Closed prog) (i : Nat) (hinstr : instr.Within prog.size) :
    Closed (prog.setIfInBounds i instr) := by
  intro j found hfound
  rw [Array.size_setIfInBounds]
  rw [Array.getElem?_setIfInBounds] at hfound
  split at hfound
  · split at hfound
    · cases hfound
      exact hinstr
    · cases hfound
  · exact h j found hfound

/-- What an emitter gives: a closed program, not shorter than before, and an entry in it. -/
structure Emitted (prog : Program) (r : Nat × Program) : Prop where
  closed : Closed r.2
  entry_lt : r.1 < r.2.size
  size_le : prog.size ≤ r.2.size

/-- What is emitted into a longer program. -/
theorem Emitted.mono {before : Program} {r : Nat × Program} (h : Emitted prog r)
    (hle : before.size ≤ prog.size) : Emitted before r :=
  ⟨h.closed, h.entry_lt, Nat.le_trans hle h.size_le⟩

/-- One more instruction, at which the program is entered. -/
theorem Emitted.push {r : Nat × Program} (h : Emitted prog r)
    (hinstr : instr.Within (r.2.size + 1)) : Emitted prog (r.2.size, r.2.push instr) := by
  refine ⟨h.closed.push hinstr, ?_, ?_⟩
  · rw [Array.size_push]
    exact Nat.lt_succ_self _
  · rw [Array.size_push]
    exact Nat.le_succ_of_le h.size_le

/-- Nothing is emitted. -/
theorem Closed.emitted {next : Nat} (h : Closed prog) (hnext : next < prog.size) :
    Emitted prog (next, prog) := ⟨h, hnext, Nat.le_refl _⟩

/-- The emitter keeps programs closed. -/
def Emitter.Sound (body : Emitter) : Prop :=
  ∀ (next : Nat) (prog : Program), Closed prog → next < prog.size → Emitted prog (body next prog)

namespace Emitter.Sound

variable {body : Emitter} {next : Nat}

theorem copies (h : body.Sound) (count : Nat) : (body.copies count).Sound := by
  induction count with
  | zero => exact fun next prog hprog hnext => hprog.emitted hnext
  | succ count ih =>
    intro next prog hprog hnext
    have hbody := h next prog hprog hnext
    exact (ih _ _ hbody.closed hbody.entry_lt).mono hbody.size_le

/-- Leaving early needs a place to go on at, which is there before the first copy. -/
theorem atMost (h : body.Sound) (greedy : Bool) (count : Nat) {entry : Nat} (hprog : Closed prog)
    (hentry : entry < prog.size) (hnext : next < prog.size) :
    Emitted prog (body.atMost greedy next count entry prog) := by
  induction count generalizing entry prog with
  | zero => exact hprog.emitted hentry
  | succ count ih =>
    have hbody := h entry prog hprog hentry
    have hleave : next < (body entry prog).2.size := Nat.lt_of_lt_of_le hnext hbody.size_le
    have hchoice := hbody.push (Instr.within_choose greedy (Nat.lt_succ_of_lt hbody.entry_lt)
      (Nat.lt_succ_of_lt hleave))
    exact (ih hchoice.closed hchoice.entry_lt (Nat.lt_of_lt_of_le hnext hchoice.size_le)).mono
      hchoice.size_le

/-- A choice that is written before the body, and completed after it. -/
theorem around (h : body.Sound) (greedy : Bool) (hprog : Closed prog) (hnext : next < prog.size) :
    let r := body prog.size (prog.push .accept)
    Emitted prog (r.1, r.2.setIfInBounds prog.size (.choose greedy r.1 next)) ∧
      prog.size < r.2.size := by
  intro r
  have hpush : Emitted prog (prog.size, prog.push .accept) :=
    Emitted.push (hprog.emitted hnext) trivial
  have hbody : Emitted (prog.push .accept) r := h _ _ hpush.closed hpush.entry_lt
  have hlt : prog.size < r.2.size := Nat.lt_of_lt_of_le hpush.entry_lt hbody.size_le
  refine ⟨⟨hbody.closed.set _ (Instr.within_choose greedy hbody.entry_lt (Nat.lt_trans hnext hlt)), ?_, ?_⟩,
    hlt⟩
  · rw [Array.size_setIfInBounds]
    exact hbody.entry_lt
  · rw [Array.size_setIfInBounds]
    exact Nat.le_of_lt hlt

theorem plus (h : body.Sound) (greedy : Bool) : (body.plus greedy).Sound :=
  fun _ _ hprog hnext => (h.around greedy hprog hnext).1

/-- A body that can be empty is entered by a choice of its own; both forms are sound. -/
theorem star (h : body.Sound) (greedy canBeEmpty : Bool) :
    (body.star greedy canBeEmpty).Sound := by
  intro next prog hprog hnext
  cases canBeEmpty with
  | true =>
    have hplus := h.plus greedy next prog hprog hnext
    have hleave := Nat.lt_of_lt_of_le hnext hplus.size_le
    exact hplus.push (Instr.within_choose greedy (Nat.lt_succ_of_lt hplus.entry_lt)
      (Nat.lt_succ_of_lt hleave))
  | false =>
    obtain ⟨hbody, hlt⟩ := h.around greedy hprog hnext
    refine ⟨hbody.closed, ?_, hbody.size_le⟩
    show prog.size < (Array.setIfInBounds _ _ _).size
    rw [Array.size_setIfInBounds]
    exact hlt

end Emitter.Sound

/-! ## Expressions -/

/-- Groups are numbered from one; zero is the whole match. -/
def Node.Numbered : Node → Prop
  | .empty | .char _ | .look _ => True
  | .capture index body => index ≠ 0 ∧ body.Numbered
  | .seq first second | .alt first second => first.Numbered ∧ second.Numbered
  | .repeated _ _ _ body => body.Numbered

/-- The instructions of an expression go on within the program. -/
theorem Node.emit_sound {node : Node} (h : node.Numbered) : Emitter.Sound node.emit := by
  induction node with
  | empty => exact fun next prog hprog hnext => hprog.emitted hnext
  | char set | look condition =>
    exact fun next prog hprog hnext => (hprog.emitted hnext).push (Nat.lt_succ_of_lt hnext)
  | capture index body ih =>
    obtain ⟨hindex, hbody⟩ := h
    intro next prog hprog hnext
    have hclose : Emitted prog (prog.size, prog.push (.save (2 * index + 1) next)) :=
      (hprog.emitted hnext).push ⟨Nat.succ_ne_zero _, Nat.lt_succ_of_lt hnext⟩
    have hinside := (ih hbody _ _ hclose.closed hclose.entry_lt).mono hclose.size_le
    exact hinside.push ⟨by omega, Nat.lt_succ_of_lt hinside.entry_lt⟩
  | seq first second ihFirst ihSecond =>
    intro next prog hprog hnext
    have hsecond := ihSecond h.2 next prog hprog hnext
    exact (ihFirst h.1 _ _ hsecond.closed hsecond.entry_lt).mono hsecond.size_le
  | alt first second ihFirst ihSecond =>
    intro next prog hprog hnext
    have hfirst := ihFirst h.1 next prog hprog hnext
    have hsecond := ihSecond h.2 next _ hfirst.closed (Nat.lt_of_lt_of_le hnext hfirst.size_le)
    have hleft := Nat.lt_of_lt_of_le hfirst.entry_lt hsecond.size_le
    have hsplit : Instr.Within _ (.split (first.emit next prog).1
        (second.emit next (first.emit next prog).2).1) :=
      ⟨Nat.lt_succ_of_lt hleft, Nat.lt_succ_of_lt hsecond.entry_lt⟩
    exact (hsecond.push hsplit).mono hfirst.size_le
  | repeated min max greedy body ih =>
    have hbody := ih h
    intro next prog hprog hnext
    match min, max with
    | 0, none => exact hbody.star greedy body.canBeEmpty next prog hprog hnext
    | min + 1, none =>
      have hplus := hbody.plus greedy next prog hprog hnext
      exact (hbody.copies min _ _ hplus.closed hplus.entry_lt).mono hplus.size_le
    | min, some max =>
      have hmost := hbody.atMost greedy (max - min) hprog hnext hnext
      have hcopies := (hbody.copies min _ _ hmost.closed hmost.entry_lt).mono hmost.size_le
      cases min <;> exact hcopies

/-! ## Threads in a part of a program -/

variable {whole : Program} {text : Array Char} {t u : Thread}

/-- A step depends on one instruction only. -/
theorem Thread.Step.congr (h : t.Step prog text u) (hinstr : whole[t.pc]? = prog[t.pc]?) :
    t.Step whole text u := by
  cases h with
  | char h htext hset => exact .char (hinstr.trans h) htext hset
  | look h hholds => exact .look (hinstr.trans h) hholds
  | save h => exact .save (hinstr.trans h)
  | first h => exact .first (hinstr.trans h)
  | second h => exact .second (hinstr.trans h)

/-- A step in a closed program stays in it, and keeps what is remembered in slot zero. -/
theorem Closed.step (h : Closed prog) (hstep : t.Step prog text u) :
    u.pc < prog.size ∧ u.slots.lookup 0 = t.slots.lookup 0 := by
  cases hstep with
  | char hinstr | look hinstr => exact ⟨h _ _ hinstr, rfl⟩
  | save hinstr =>
    obtain ⟨hslot, hnext⟩ := h _ _ hinstr
    refine ⟨hnext, ?_⟩
    show List.lookup 0 ((_, _) :: _) = _
    rw [List.lookup_cons, beq_false_of_ne (Ne.symm hslot)]
  | first hinstr => exact ⟨(h _ _ hinstr).1, rfl⟩
  | second hinstr => exact ⟨(h _ _ hinstr).2, rfl⟩

/-- A thread in a closed part of a program stays in the part. -/
theorem Closed.leadsTo (h : Closed prog) (hpart : ∀ i < prog.size, whole[i]? = prog[i]?)
    (ht : t.pc < prog.size) (hlead : t.LeadsTo whole text u) :
    t.LeadsTo prog text u ∧ u.pc < prog.size ∧ u.slots.lookup 0 = t.slots.lookup 0 := by
  induction hlead with
  | refl => exact ⟨.refl, ht, rfl⟩
  | tail _ hstep ih =>
    obtain ⟨hlead, hpc, hslots⟩ := ih
    have hstep := hstep.congr (hpart _ hpc).symm
    obtain ⟨hpc, hslots'⟩ := h.step hstep
    exact ⟨hlead.tail hstep, hpc, hslots'.trans hslots⟩

/-- A closed part of a program succeeds just as it does alone. -/
theorem Closed.succeeds_iff (h : Closed prog) (hpart : ∀ i < prog.size, whole[i]? = prog[i]?)
    (ht : t.pc < prog.size) : t.Succeeds whole text ↔ t.Succeeds prog text := by
  have haccepts {u : Thread} (hu : u.pc < prog.size) : u.accepts whole = u.accepts prog := by
    rw [Thread.accepts, Thread.accepts, hpart _ hu]
  constructor
  · rintro ⟨u, hlead, hu⟩
    obtain ⟨hlead, hpc, -⟩ := h.leadsTo hpart ht hlead
    exact ⟨u, hlead, (haccepts hpc).symm.trans hu⟩
  · rintro ⟨u, hlead, hu⟩
    have hwhole : t.LeadsTo whole text u ∧ u.pc < prog.size := by
      clear hu
      induction hlead with
      | refl => exact ⟨.refl, ht⟩
      | tail _ hstep ih =>
        exact ⟨ih.1.tail (hstep.congr (hpart _ ih.2)), (h.step hstep).1⟩
    exact ⟨u, hwhole.1, (haccepts hwhole.2).trans hu⟩

/-! ## Machines -/

/-- The end of a match: it is remembered, and the match accepted. -/
def ending : Program := #[.accept, .save 1 0]

/-- Where the instructions of an expression are entered, and the program with the end of the match. -/
def Node.inside (node : Node) : Nat × Program := node.emit 1 ending

/-- The machine of an expression: its instructions, and one in front that remembers where the match
    starts. -/
theorem Node.machine_eq (node : Node) :
    node.machine = ⟨node.inside.2.size, node.inside.2.push (.save 0 node.inside.1)⟩ := rfl

theorem closed_ending : Closed ending := by
  intro i instr hinstr
  match i, hinstr with
  | 0, hinstr =>
    cases hinstr
    trivial
  | 1, hinstr =>
    cases hinstr
    exact ⟨Nat.one_ne_zero, Nat.zero_lt_two⟩

/-- The instructions of an expression go on within its machine. -/
theorem Node.emitted_inside {node : Node} (h : node.Numbered) : Emitted ending node.inside :=
  node.emit_sound h 1 ending closed_ending Nat.one_lt_two

theorem getElem?_push_lt (prog : Program) (instr : Instr) :
    ∀ i < prog.size, (prog.push instr)[i]? = prog[i]? := by
  intro i hi
  rw [Array.getElem?_push, if_neg (Nat.ne_of_lt hi)]

/-- There is one step from an instruction that remembers the place. -/
theorem Thread.step_save_iff {slot next : Nat} (hinstr : prog[t.pc]? = some (.save slot next)) :
    t.Step prog text u ↔ u = { t with pc := next, slots := (slot, t.place) :: t.slots } := by
  constructor
  · intro h
    cases h with
    | char h | look h | first h | second h => cases hinstr.symm.trans h
    | save h =>
      cases hinstr.symm.trans h
      rfl
  · rintro rfl
    exact .save hinstr

/-- There is one step from a condition if it holds, and none if it does not. -/
theorem Thread.step_look_iff {condition : Look} {next : Nat}
    (hinstr : prog[t.pc]? = some (.look condition next)) :
    t.Step prog text u ↔
      condition.holds (before text t.place) text[t.place]? = true ∧ u = { t with pc := next } := by
  constructor
  · intro h
    cases h with
    | char h | save h | first h | second h => cases hinstr.symm.trans h
    | look h hholds =>
      cases hinstr.symm.trans h
      exact ⟨hholds, rfl⟩
  · rintro ⟨hholds, rfl⟩
    exact .look hinstr hholds

/-- A thread that does not accept leads on by a step. -/
theorem Thread.exists_step (hfails : t.accepts prog = false) (haccepts : u.accepts prog = true)
    (hlead : t.LeadsTo prog text u) : ∃ v, t.Step prog text v ∧ v.LeadsTo prog text u := by
  rcases hlead.cases_head with rfl | ⟨v, hstep, hlead⟩
  · rw [hfails] at haccepts
    cases haccepts
  · exact ⟨v, hstep, hlead⟩

/-- A thread that does not accept yet succeeds just if a next one does. -/
theorem Thread.succeeds_iff_step (hfails : t.accepts prog = false) :
    t.Succeeds prog text ↔ ∃ v, t.Step prog text v ∧ v.Succeeds prog text := by
  constructor
  · rintro ⟨u, hlead, haccepts⟩
    obtain ⟨v, hstep, hlead⟩ := t.exists_step hfails haccepts hlead
    exact ⟨v, hstep, u, hlead, haccepts⟩
  · rintro ⟨v, hstep, u, hlead, haccepts⟩
    exact ⟨u, .head hstep hlead, haccepts⟩

/-- The thread that has remembered where its match starts. -/
def Node.started (node : Node) (place : Nat) : Thread := ⟨node.inside.1, place, [(0, place)]⟩

variable {node : Node}

/-- A match starts with remembering the place. -/
theorem Node.machine_start (node : Node) (place : Nat) :
    node.machine.program[(node.machine.thread place).pc]? = some (.save 0 node.inside.1) := by
  rw [node.machine_eq]
  exact Array.getElem?_push_size

theorem Node.not_accepts_start (node : Node) (place : Nat) :
    (node.machine.thread place).accepts node.machine.program = false := by
  rw [Thread.accepts, node.machine_start]

/-- A match starts at a place just if the instructions of the expression succeed there. -/
theorem Node.startsAt_iff (h : node.Numbered) (text : Array Char) (place : Nat) :
    node.machine.StartsAt text place ↔ (node.started place).Succeeds node.inside.2 text := by
  have hinside := node.emitted_inside h
  rw [Machine.StartsAt, Thread.succeeds_iff_step (node.not_accepts_start place),
    ← hinside.closed.succeeds_iff (getElem?_push_lt _ (.save 0 node.inside.1)) hinside.entry_lt]
  simp only [Thread.step_save_iff (node.machine_start place), exists_eq_left]
  rfl

/-- A match remembers the place where it starts. -/
theorem Node.lookup_start (h : node.Numbered) {place : Nat}
    (hlead : (node.machine.thread place).LeadsTo node.machine.program text u)
    (haccepts : u.accepts node.machine.program = true) : u.slots.lookup 0 = some place := by
  have hinside := node.emitted_inside h
  obtain ⟨v, hstep, hlead⟩ :=
    Thread.exists_step (node.not_accepts_start place) haccepts hlead
  obtain rfl := (Thread.step_save_iff (node.machine_start place)).1 hstep
  exact (hinside.closed.leadsTo (getElem?_push_lt _ _) hinside.entry_lt hlead).2.2

/-! ## The anchor -/

/-- An anchored expression matches at the start of the text only, just if the expression does. -/
theorem Node.startsAt_anchored_iff (h : node.Numbered) {place : Nat} (hplace : place ≤ text.size) :
    (Node.seq (.look .textStart) node).machine.StartsAt text place ↔
      place = 0 ∧ node.machine.StartsAt text 0 := by
  have hinside := node.emitted_inside h
  let anchored := Node.seq (.look .textStart) node
  have hanchored : anchored.Numbered := ⟨trivial, h⟩
  have hinstr : anchored.inside.2[(anchored.started place).pc]? =
      some (.look .textStart node.inside.1) := Array.getElem?_push_size
  have hfails : (anchored.started place).accepts anchored.inside.2 = false := by
    rw [Thread.accepts, hinstr]
  have hholds : Look.textStart.holds (before text place) text[place]? = true ↔ place = 0 := by
    show (before text place).isNone = true ↔ place = 0
    rw [before]
    split
    · next hzero => exact ⟨fun _ => hzero, fun _ => rfl⟩
    · next hzero =>
      rw [Option.isNone_iff_eq_none, Array.getElem?_eq_none_iff]
      omega
  rw [Node.startsAt_iff hanchored, Node.startsAt_iff h, Thread.succeeds_iff_step hfails]
  constructor
  · rintro ⟨v, hstep, hsucceeds⟩
    obtain ⟨hlook, rfl⟩ := (Thread.step_look_iff hinstr).1 hstep
    obtain rfl := hholds.1 hlook
    exact ⟨rfl, (hinside.closed.succeeds_iff (getElem?_push_lt _ _) hinside.entry_lt).1 hsucceeds⟩
  · rintro ⟨rfl, hsucceeds⟩
    exact ⟨_, (Thread.step_look_iff hinstr).2 ⟨hholds.2 rfl, rfl⟩,
      (hinside.closed.succeeds_iff (getElem?_push_lt _ _) hinside.entry_lt).2 hsucceeds⟩

end RuleSieve.Regex
