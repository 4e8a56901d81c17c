/-
  Patterns that are put in a group.

  A pattern that stands in a group is read like the pattern alone, with one more group around what is
  open, up to a parenthesis that closes a group the pattern did not open, or up to the end.
-/
import RuleSieve.Proofs.ClassTail

namespace RuleSieve.Regex

variable {α : Type} {cs : List Char}

/-! ## Items -/

/-- What is left of a repetition, after its bounds. -/
theorem local_repeat (st : ReaderState) (min : Nat) (max : Option Nat) :
    Local fun cs => st.repeatLast min max (readLazy cs).1 >>= fun st => .ok (st, (readLazy cs).2) := by
  intro cs
  simp only [readLazy_paren]
  cases st.repeatLast min max (readLazy cs).1 with
  | error e => exact .fails e e
  | ok st => exact .goesOn st (readLazy_suffix cs)

/-- An item that a brace with nothing behind it follows, where no count can be read. -/
def DeadEnd (st : ReaderState) (x y : Except PatternError (ReaderState × List Char)) : Prop :=
  ∃ piece after e, st.flags.skip after = [] ∧ x = .error e ∧
    y = .ok (st.push piece, '\x7b' :: (after ++ [')']))

/-- An item is read alike with the parenthesis behind it, unless it is a dead end. -/
theorem readItem_paren (st : ReaderState) (c : Char) (cs : List Char) :
    Agree cs (readItem st (c :: cs)) (readItem st (c :: (cs ++ [')']))) ∨
      DeadEnd st (readItem st (c :: cs)) (readItem st (c :: (cs ++ [')']))) := by
  unfold readItem
  dsimp only
  split
  · exact .inl (local_readGroup st cs)
  · exact .inl (local_of_except st.closeGroup id cs)
  · exact .inl (.ok _)
  · exact .inl ((local_readClass st.flags cs).andThen fun member =>
      local_ok (st.push ⟨.char member.set, member.nest, true⟩))
  · exact .inl (local_repeat st 0 (some 1) cs)
  · exact .inl (local_repeat st 0 none cs)
  · exact .inl (local_repeat st 1 none cs)
  · exact .inl ((local_readBounds st.flags cs).andThen fun bounds =>
      (local_repeat st bounds.1 bounds.2).skip st.flags)
  · rcases readEscape_paren st.flags cs with h | ⟨after, e, hafter, hx, hy⟩
    · exact .inl (h.andThen fun atom => local_ok (st.push (st.flags.piece atom)))
    · rw [hx, hy]
      exact .inr ⟨_, after, e, hafter, rfl, rfl⟩
  · exact .inl (local_of_except st.flags.dot (fun set => st.push (.leaf (.char set))) cs)
  · exact .inl (.ok _)
  · exact .inl (.ok _)
  · exact .inl (.ok _)

/-- An item is read off the front of the pattern. -/
theorem readItem_suffix {st st' : ReaderState} {c : Char} {rest : List Char}
    (h : readItem st (c :: cs) = .ok (st', rest)) : rest <:+ cs := by
  rcases readItem_paren st c cs with hagree | ⟨_, _, e, -, hx, -⟩
  · exact hagree.suffix h
  · rw [hx] at h
    cases h

/-! ## Reading to the end -/

/-- The fuel for items does not matter, if there is enough of it. -/
theorem readItems_fuel {n m : Nat} (st : ReaderState) (hn : cs.length ≤ n) (hm : cs.length ≤ m) :
    readItems n st cs = readItems m st cs := by
  induction n generalizing m st cs with
  | zero =>
    obtain rfl := List.length_eq_zero_iff.1 (Nat.le_zero.1 hn)
    cases m with
    | zero => rfl
    | succ m => rw [readItems, readItems, st.flags.skip_nil]
  | succ n ih =>
    cases m with
    | zero =>
      obtain rfl := List.length_eq_zero_iff.1 (Nat.le_zero.1 hm)
      rw [readItems, readItems, st.flags.skip_nil]
    | succ m =>
      rw [readItems, readItems]
      have hskip := (st.flags.skip_suffix cs).length_le
      cases hcs : st.flags.skip cs with
      | nil => rfl
      | cons c ds =>
        rw [hcs, List.length_cons] at hskip
        show (readItem st (c :: ds) >>= fun r => readItems n r.1 r.2) =
          (readItem st (c :: ds) >>= fun r => readItems m r.1 r.2)
        cases hitem : readItem st (c :: ds) with
        | error e => rfl
        | ok r =>
          have hrest := (readItem_suffix hitem).length_le
          exact ih r.1 (by omega) (by omega)

/-- Reads items to the end of the text. -/
def readAll (st : ReaderState) (cs : List Char) : Except PatternError ReaderState :=
  readItems cs.length st cs

/-- Where there is nothing but what verbose mode skips, the pattern ends. -/
theorem readAll_end (st : ReaderState) (h : st.flags.skip cs = []) : readAll st cs = .ok st := by
  unfold readAll
  cases cs with
  | nil => rfl
  | cons c cs => rw [List.length_cons, readItems, h]

/-- A pattern is read item by item. -/
theorem readAll_item (st : ReaderState) {c : Char} {ds : List Char}
    (h : st.flags.skip cs = c :: ds) :
    readAll st cs = readItem st (c :: ds) >>= fun r => readAll r.1 r.2 := by
  have hskip := (st.flags.skip_suffix cs).length_le
  rw [h, List.length_cons] at hskip
  obtain ⟨n, hn⟩ : ∃ n, cs.length = n + 1 := ⟨cs.length - 1, by omega⟩
  rw [readAll, hn, readItems, h]
  show (readItem st (c :: ds) >>= fun r => readItems n r.1 r.2) = _
  cases hitem : readItem st (c :: ds) with
  | error e => rfl
  | ok r =>
    have hrest := (readItem_suffix hitem).length_le
    exact readItems_fuel r.1 (by omega) (Nat.le_refl _)

/-! ## Within a group -/

/-- The same state inside a group that is not remembered, in the level `base`. -/
def ReaderState.within (base : Level) (st : ReaderState) : ReaderState :=
  { st with outer := st.outer ++ [(none, base)] }

/-- The same result inside a group. -/
def within (base : Level) (x : Except PatternError (ReaderState × List Char)) :
    Except PatternError (ReaderState × List Char) :=
  x.map fun r => (r.1.within base, r.2)

theorem outer_within (base : Level) (st : ReaderState) : (st.within base).outer ≠ [] := by
  simp [ReaderState.within]

/-- What is repeated is the same inside a group. -/
theorem repeatLast_within (base : Level) (st : ReaderState) (min : Nat) (max : Option Nat)
    (lazy : Bool) :
    (st.within base).repeatLast min max lazy =
      (st.repeatLast min max lazy).map (·.within base) := by
  obtain ⟨⟨flags, branches, pieces⟩, outer, captures, names⟩ := st
  cases pieces with
  | nil => rfl
  | cons piece pieces =>
    obtain ⟨node, nest, repeatable⟩ := piece
    cases repeatable <;> rfl

/-- A group that is closed inside a group is not that group. -/
theorem closeGroup_within (base : Level) {st : ReaderState} (h : st.outer ≠ []) :
    (st.within base).closeGroup = st.closeGroup.map (·.within base) := by
  obtain ⟨level, outer, captures, names⟩ := st
  cases outer with
  | nil => exact absurd rfl h
  | cons frame outer => rfl

/-- What opens a group is the same inside a group. -/
theorem readGroup_within (base : Level) (st : ReaderState) (cs : List Char) :
    readGroup (st.within base) cs = within base (readGroup st cs) := by
  unfold readGroup
  rw [show (st.within base).flags = st.flags from rfl]
  dsimp only
  split
  · rfl
  · split
    · next after _ =>
      cases readName after with
      | error e => rfl
      | ok r =>
        show (if st.names.any _ then _ else _) = within base (if st.names.any _ then _ else _)
        split <;> rfl
    · split
      · next more _ =>
        cases readFlags st.flags [] true more with
        | error e => rfl
        | ok r =>
          obtain ⟨flags, rest⟩ := r
          simp only [bind, Except.bind]
          split
          · split <;> rfl
          · rfl
      · rfl

/-- An item is read alike inside a group, unless it closes that group. -/
theorem readItem_within (base : Level) (st : ReaderState) (c : Char) (cs : List Char)
    (hopen : c = ')' → st.outer ≠ []) :
    readItem (st.within base) (c :: cs) = within base (readItem st (c :: cs)) := by
  have hrepeat (min : Nat) (max : Option Nat) (cs : List Char) :
      ((st.within base).repeatLast min max (readLazy cs).1 >>= fun st =>
        .ok (st, (readLazy cs).2)) =
        within base (st.repeatLast min max (readLazy cs).1 >>= fun st => .ok (st, (readLazy cs).2)) := by
    rw [repeatLast_within]
    cases st.repeatLast min max (readLazy cs).1 <;> rfl
  unfold readItem
  rw [show (st.within base).flags = st.flags from rfl]
  dsimp only
  split
  · exact readGroup_within base st cs
  · rw [closeGroup_within base (hopen rfl)]
    cases st.closeGroup <;> rfl
  · rfl
  · cases readClass st.flags cs <;> rfl
  · exact hrepeat 0 (some 1) cs
  · exact hrepeat 0 none cs
  · exact hrepeat 1 none cs
  · cases readBounds st.flags cs with
    | error e => rfl
    | ok bounds => exact hrepeat bounds.1.1 bounds.1.2 (st.flags.skip bounds.2)
  · cases readEscape st.flags cs <;> rfl
  · cases st.flags.dot <;> rfl
  · rfl
  · rfl
  · rfl

/-! ## Whole patterns -/

/-- How a text is read alone, with a closing parenthesis behind it, and so inside a group. -/
inductive Wrapped (base : Level) :
    (alone closed inside : Except PatternError ReaderState) → Prop
  /-- The text closes a group that it did not open. -/
  | unopened (y z : Except PatternError ReaderState) :
      Wrapped base (.error (.malformed "the group is not open")) y z
  /-- The text is not well formed, and neither is the group. -/
  | fails (e : PatternError) (y : Except PatternError ReaderState)
      {z : Except PatternError ReaderState} (h : ∀ st, z = .ok st → st.outer ≠ []) :
      Wrapped base (.error e) y z
  /-- The parenthesis is in a comment. -/
  | swallowed (st : ReaderState) : Wrapped base (.ok st) (.ok st) (.ok (st.within base))
  /-- The parenthesis is seen. -/
  | seen (st : ReaderState) :
      Wrapped base (.ok st) st.closeGroup (st.within base).closeGroup

/-- Outside of all groups a closing parenthesis is refused. -/
theorem readItem_paren_open {st : ReaderState} (h : st.outer = []) (cs : List Char) :
    readItem st (')' :: cs) = .error (.malformed "the group is not open") := by
  obtain ⟨level, outer, captures, names⟩ := st
  cases h
  rfl

/-- A pattern that only closes a group does nothing else. -/
theorem readAll_paren (st : ReaderState) : readAll st [')'] = st.closeGroup := by
  rw [readAll_item st (st.flags.skip_cons (by decide) (by decide) [])]
  show ((st.closeGroup >>= fun st => .ok (st, [])) >>= fun r => readAll r.1 r.2) = st.closeGroup
  cases st.closeGroup with
  | error e => rfl
  | ok st' => rfl

/-- A brace with nothing but a parenthesis behind it is no item. -/
theorem readAll_brace (st : ReaderState) {after : List Char} (h : st.flags.skip after = []) :
    ∃ e, readAll st ('\x7b' :: (after ++ [')'])) = .error e := by
  have hbounds : readBounds st.flags (after ++ [')']) =
      .error (.malformed "the repetition has no count") := by
    unfold readBounds
    rcases st.flags.skip_append after with hskip | ⟨-, hskip', -⟩
    · rw [hskip, h]
      rfl
    · rw [hskip']
      rfl
  rw [readAll_item st (st.flags.skip_cons (by decide) (by decide) _)]
  show ∃ e, ((readBounds st.flags (after ++ [')']) >>= fun r => _) >>= fun r => _) = _
  rw [hbounds]
  exact ⟨_, rfl⟩

/-- A text is read in one of the ways that `Wrapped` tells apart. -/
theorem wrapped_readAll (base : Level) (st : ReaderState) (cs : List Char) :
    Wrapped base (readAll st cs) (readAll st (cs ++ [')']))
      (readAll (st.within base) (cs ++ [')'])) := by
  induction hn : cs.length using Nat.strongRecOn generalizing cs st with
  | _ n ih =>
  subst hn
  -- the flags in force inside the group are the same, so the same is skipped
  rcases st.flags.skip_append cs with hskip | ⟨hskip, hskip', -⟩
  · cases hcs : st.flags.skip cs with
    | nil =>
      rw [hcs] at hskip
      have hparen (st' : ReaderState) (h : st'.flags.skip (cs ++ [')']) = [')']) :
          readAll st' (cs ++ [')']) = st'.closeGroup := by
        rw [readAll_item st' h, ← readAll_paren st',
          readAll_item st' (st'.flags.skip_cons (by decide) (by decide) [])]
      rw [readAll_end st hcs, hparen st hskip, hparen (st.within base) hskip]
      exact .seen st
    | cons c ds =>
      have hlt : ds.length < cs.length := by
        have hle := (st.flags.skip_suffix cs).length_le
        rw [hcs, List.length_cons] at hle
        exact hle
      rw [hcs, List.cons_append] at hskip
      rw [readAll_item st hcs, readAll_item st hskip, readAll_item (st.within base) hskip]
      by_cases hopen : c = ')' ∧ st.outer = []
      · obtain ⟨rfl, hopen⟩ := hopen
        rw [readItem_paren_open hopen]
        exact .unopened _ _
      -- from here on the group is not the one that the item may close
      rw [readItem_within base st c _ fun hc houter => hopen ⟨hc, houter⟩]
      have hitem := readItem_paren st c ds
      generalize readItem st (c :: ds) = x at hitem ⊢
      generalize readItem st (c :: (ds ++ [')'])) = y at hitem ⊢
      rcases hitem with hitem | ⟨piece, after, e, hafter, rfl, rfl⟩
      · cases hitem with
        | fails e e' => exact .fails e _ fun st h => by cases h
        | @goesOn st' rest hrest => exact ih _ (Nat.lt_of_le_of_lt hrest.length_le hlt) st' rest rfl
        | swallows st' _ => exact .swallowed st'
        | finishes e st' =>
          refine .fails e _ fun st h => ?_
          cases h
          exact outer_within base st'
      · obtain ⟨e', hbrace⟩ := readAll_brace ((st.push piece).within base) hafter
        refine .fails e _ fun st h => ?_
        cases hbrace.symm.trans h
  · rw [readAll_end st hskip, readAll_end st hskip', readAll_end (st.within base) hskip']
    exact .swallowed st

/-! ## The anchor -/

/-- The level around the group of an anchored pattern. -/
def anchorLevel : Level := (Level.fresh .start).push (.leaf (.look .textStart))

/-- The anchored pattern is read like the pattern itself, inside a group behind the anchor. -/
theorem readAll_anchored (source : List Char) :
    readAll .start (anchored source) =
      readAll (ReaderState.start.within anchorLevel) (source ++ [')']) := by
  have hanchor : ReaderState.start.flags.skip (anchored source) =
      '\\' :: (['A', '(', '?', ':'] ++ source ++ [')']) := rfl
  let looking := ReaderState.start.push (.leaf (.look .textStart))
  have hgroup : looking.flags.skip (['(', '?', ':'] ++ source ++ [')']) =
      '(' :: (['?', ':'] ++ source ++ [')']) := rfl
  rw [readAll_item .start hanchor]
  exact readAll_item looking hgroup

theorem read_eq (source : List Char) :
    Pattern.read source = readAll .start source >>= ReaderState.finish := rfl

/-- A pattern ends outside of all groups, not too deep and not too large. -/
theorem finish_eq_ok_iff {st : ReaderState} {pattern : Pattern} :
    st.finish = .ok pattern ↔
      st.outer = [] ∧ st.level.body.nest ≤ maxNest ∧ st.level.body.node.cost ≤ Node.maxCost ∧
        pattern = ⟨st.level.body.node, st.names⟩ := by
  unfold ReaderState.finish
  cases houter : st.outer with
  | cons frame outer => exact ⟨fun h => (by cases h), fun h => (by cases h.1)⟩
  | nil =>
    show (if maxNest < _ then _ else if Node.maxCost < _ then _ else _) = _ ↔ _
    by_cases hnest : maxNest < st.level.body.nest
    · rw [if_pos hnest]
      exact ⟨fun h => (by cases h), fun h => absurd h.2.1 (Nat.not_le.2 hnest)⟩
    · rw [if_neg hnest]
      by_cases hcost : Node.maxCost < st.level.body.node.cost
      · rw [if_pos hcost]
        exact ⟨fun h => (by cases h), fun h => absurd h.2.2.1 (Nat.not_le.2 hcost)⟩
      · rw [if_neg hcost]
        exact ⟨fun h => ⟨rfl, Nat.not_lt.1 hnest, Nat.not_lt.1 hcost, (Except.ok.inj h).symm⟩,
          fun h => congrArg Except.ok h.2.2.2.symm⟩

/-- The body of an anchored pattern, from what is in its group. -/
theorem body_anchorLevel (piece : Piece) :
    (anchorLevel.push piece).body = ⟨.seq (.look .textStart) piece.node, 1 + piece.nest, true⟩ := by
  have hnest : max (max 0 0) piece.nest = piece.nest := Nat.zero_max _
  show (⟨_, 1 + max (max 0 0) piece.nest, true⟩ : Piece) = _
  rw [hnest]
  rfl

/-- Is a pattern, if it is one, small enough to stand in the group of an anchored pattern?  It is two
    levels deeper there, and the anchor has a cost of its own. -/
def FitsGroup (source : List Char) : Prop :=
  ∀ st, readAll .start source = .ok st →
    st.level.body.nest + 2 ≤ maxNest ∧ st.level.body.node.cost + 32 ≤ Node.maxCost

/-- An anchored pattern is well formed just if the pattern is, the group around it is closed by its
    own parenthesis, and there is room for it; a pattern that closes the group itself is left out. -/
theorem read_anchored (source : List Char) (pattern : Pattern)
    (hopen : Pattern.read source ≠ .error (.malformed "the group is not open")) :
    Pattern.read (anchored source) = .ok pattern ↔
      ∃ inner, Pattern.read source = .ok inner ∧ FitsGroup source ∧
        (¬ ∃ commented, Pattern.read (source ++ [')']) = .ok commented) ∧
        pattern = ⟨.seq (.look .textStart) inner.node, inner.names⟩ := by
  rw [read_eq, read_eq, read_eq, readAll_anchored]
  have hwrapped := wrapped_readAll anchorLevel .start source
  rw [read_eq] at hopen
  unfold FitsGroup
  generalize readAll .start source = x at hwrapped hopen
  generalize readAll .start (source ++ [')']) = y at hwrapped
  generalize readAll (ReaderState.start.within anchorLevel) (source ++ [')']) = z at hwrapped
  cases hwrapped with
  | unopened => exact absurd rfl hopen
  | fails e _ h =>
    constructor
    · intro hread
      obtain ⟨st, hst, hfinish⟩ := Outcome.bind_eq_ok_iff.1 hread
      exact absurd (finish_eq_ok_iff.1 hfinish).1 (h st hst)
    · rintro ⟨inner, hinner, -⟩
      cases hinner
  | swallowed st =>
    constructor
    · intro hread
      exact absurd (finish_eq_ok_iff.1 hread).1 (outer_within _ st)
    · rintro ⟨inner, hinner, -, hclosed, -⟩
      exact absurd ⟨inner, hinner⟩ hclosed
  | seen st =>
    obtain ⟨level, outer, captures, names⟩ := st
    let alone : ReaderState := ⟨level, outer, captures, names⟩
    show _ ↔ ∃ inner, alone.finish = .ok inner ∧ _
    cases outer with
    | cons frame outer =>
      constructor
      · intro hread
        exact absurd (finish_eq_ok_iff.1 hread).1 (by simp)
      · rintro ⟨inner, hinner, -⟩
        cases (finish_eq_ok_iff.1 hinner).1
    | nil =>
      let closed : ReaderState :=
        ⟨anchorLevel.push ⟨level.body.node, 1 + level.body.nest, true⟩, [], captures, names⟩
      have hbody : closed.level.body =
          ⟨.seq (.look .textStart) level.body.node, 1 + (1 + level.body.nest), true⟩ :=
        body_anchorLevel _
      have hcost : (Node.seq (.look .textStart) level.body.node).cost = 32 + level.body.node.cost :=
        rfl
      show closed.finish = .ok pattern ↔ _
      rw [finish_eq_ok_iff, hbody, hcost]
      constructor
      · rintro ⟨-, hnest, hcost, rfl⟩
        dsimp only at hnest
        refine ⟨⟨level.body.node, names⟩, finish_eq_ok_iff.2 ⟨rfl, ?_, ?_, rfl⟩, ?_, ?_, rfl⟩
        · show level.body.nest ≤ _
          omega
        · show level.body.node.cost ≤ _
          omega
        · intro st hst
          cases hst
          show level.body.nest + 2 ≤ maxNest ∧ level.body.node.cost + 32 ≤ Node.maxCost
          omega
        · rintro ⟨commented, h⟩
          cases h
      · rintro ⟨inner, hinner, hfits, -, rfl⟩
        obtain ⟨-, -, -, rfl⟩ := finish_eq_ok_iff.1 hinner
        obtain ⟨hnest, hcost⟩ :
          level.body.nest + 2 ≤ maxNest ∧ level.body.node.cost + 32 ≤ Node.maxCost := hfits _ rfl
        refine ⟨rfl, ?_, ?_, rfl⟩
        · show 1 + (1 + level.body.nest) ≤ maxNest
          omega
        · show 32 + level.body.node.cost ≤ Node.maxCost
          omega

end RuleSieve.Regex
