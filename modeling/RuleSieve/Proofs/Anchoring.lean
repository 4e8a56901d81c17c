/-
  Patterns that match at the start of a text only.

  A pattern is anchored by text: it is put in a group behind the anchor.  That is faithful as long as
  the pattern does not close the group, does not take the end of the group into a comment, and leaves
  room for the group.
-/
import RuleSieve.Filter
import RuleSieve.Proofs.Emission
import RuleSieve.Proofs.Wrapping

namespace RuleSieve.Regex

/-! ## Numbers of groups -/

theorem Node.numbered_sequence {nodes : List Node} (h : ∀ node ∈ nodes, node.Numbered) :
    (Node.sequence nodes).Numbered := by
  match nodes with
  | [] => trivial
  | [node] => exact h node List.mem_cons_self
  | node :: next :: nodes =>
    obtain ⟨hnode, hnodes⟩ := List.forall_mem_cons.1 h
    exact ⟨hnode, numbered_sequence hnodes⟩

theorem Node.numbered_oneOf {nodes : List Node} (h : ∀ node ∈ nodes, node.Numbered) :
    (Node.oneOf nodes).Numbered := by
  match nodes with
  | [] => trivial
  | [node] => exact h node List.mem_cons_self
  | node :: next :: nodes =>
    obtain ⟨hnode, hnodes⟩ := List.forall_mem_cons.1 h
    exact ⟨hnode, numbered_oneOf hnodes⟩

/-- Repeating an expression numbers its groups as they were. -/
theorem Node.numbered_times {node : Node} (h : node.Numbered) (min : Nat) (max : Option Nat)
    (greedy : Bool) : (Node.times min max greedy node).Numbered := by
  have hite {c : Prop} [Decidable c] {first second : Node} (hfirst : first.Numbered)
      (hsecond : second.Numbered) : (if c then first else second).Numbered := by
    split
    · exact hfirst
    · exact hsecond
  exact hite trivial (hite h h)

/-- Joining pieces, one after the other or as alternatives, numbers their groups as they were. -/
theorem Piece.numbered_joined {pieces : List Piece} {build : List Node → Node}
    (hbuild : ∀ {nodes}, (∀ node ∈ nodes, node.Numbered) → (build nodes).Numbered)
    (h : ∀ piece ∈ pieces, piece.node.Numbered) : (Piece.joined pieces build).node.Numbered := by
  unfold Piece.joined
  split
  · trivial
  · exact h _ List.mem_cons_self
  · refine hbuild fun node hnode => ?_
    obtain ⟨piece, hpiece, rfl⟩ := List.mem_map.1 hnode
    exact h piece hpiece

/-- No group of the level is numbered zero. -/
structure Level.Numbered (level : Level) : Prop where
  pieces : ∀ piece ∈ level.pieces, piece.node.Numbered
  branches : ∀ piece ∈ level.branches, piece.node.Numbered

namespace Level.Numbered

variable {level : Level}

theorem fresh (flags : Flags) : (Level.fresh flags).Numbered :=
  ⟨fun _ h => (by cases h), fun _ h => (by cases h)⟩

/-- A piece that is added to a branch has its groups numbered from one, and so has the level. -/
theorem push {piece : Piece} (h : level.Numbered) (hpiece : piece.node.Numbered) :
    (level.push piece).Numbered :=
  ⟨List.forall_mem_cons.2 ⟨hpiece, h.pieces⟩, h.branches⟩

/-- The branch that is being read, as one piece. -/
theorem branch (h : level.Numbered) : level.branch.node.Numbered :=
  Piece.numbered_joined Node.numbered_sequence fun piece hpiece =>
    h.pieces piece (List.mem_reverse.1 hpiece)

theorem nextBranch (h : level.Numbered) : level.nextBranch.Numbered :=
  ⟨fun _ h => (by cases h), List.forall_mem_cons.2 ⟨h.branch, h.branches⟩⟩

/-- All branches of a level as one piece. -/
theorem body (h : level.Numbered) : level.body.node.Numbered := by
  have hall : ∀ piece ∈ level.branch :: level.branches, piece.node.Numbered :=
    List.forall_mem_cons.2 ⟨h.branch, h.branches⟩
  exact Piece.numbered_joined Node.numbered_oneOf fun piece hpiece =>
    hall piece (List.mem_reverse.1 hpiece)

end Level.Numbered

/-- No group that was read, or is being read, is numbered zero. -/
structure ReaderState.Numbered (st : ReaderState) : Prop where
  level : st.level.Numbered
  outer : ∀ frame ∈ st.outer, frame.1 ≠ some 0 ∧ frame.2.Numbered

/-- Groups are numbered from one in what a reader gives. -/
def Keeps (x : Except PatternError (ReaderState × List Char)) : Prop :=
  ∀ st rest, x = .ok (st, rest) → st.Numbered

theorem Keeps.error (e : PatternError) : Keeps (.error e) := fun _ _ h => by cases h

theorem Keeps.ok {st : ReaderState} (h : st.Numbered) (rest : List Char) : Keeps (.ok (st, rest)) := by
  intro st' rest' heq
  cases heq
  exact h

theorem Keeps.bind {α : Type} (x : Except PatternError α)
    {f : α → Except PatternError (ReaderState × List Char)} (h : ∀ a, Keeps (f a)) :
    Keeps (x >>= f) := by
  cases x with
  | error e => exact .error e
  | ok a => exact h a

namespace ReaderState.Numbered

variable {st : ReaderState}

theorem push {piece : Piece} (h : st.Numbered) (hpiece : piece.node.Numbered) :
    (st.push piece).Numbered := ⟨h.level.push hpiece, h.outer⟩

/-- A group that is opened has no number, or one that is not zero. -/
theorem openGroup (h : st.Numbered) {index : Option Nat} (hindex : index ≠ some 0) (flags : Flags) :
    (st.openGroup index flags).Numbered :=
  ⟨.fresh flags, List.forall_mem_cons.2 ⟨⟨hindex, h.level⟩, h.outer⟩⟩

theorem openCapture (h : st.Numbered) : st.openCapture.Numbered :=
  ⟨.fresh _, List.forall_mem_cons.2 ⟨⟨by simp, h.level⟩, h.outer⟩⟩

/-- The group that is closed is numbered as it was when it was opened. -/
theorem closeGroup {st' : ReaderState} (h : st.Numbered) (hclose : st.closeGroup = .ok st') :
    st'.Numbered := by
  obtain ⟨level, outer, captures, names⟩ := st
  cases outer with
  | nil => cases hclose
  | cons frame outer =>
    obtain ⟨index, base⟩ := frame
    obtain ⟨⟨hindex, hbase⟩, houter⟩ := List.forall_mem_cons.1 h.outer
    have hbody := h.level.body
    cases hclose
    refine ⟨hbase.push ?_, houter⟩
    cases index with
    | none => exact hbody
    | some index => exact ⟨fun hzero => hindex (congrArg some hzero), hbody⟩

/-- A repetition of the last piece numbers no group anew. -/
theorem repeatLast {st' : ReaderState} {min : Nat} {max : Option Nat} {lazy : Bool}
    (h : st.Numbered) (hrepeat : st.repeatLast min max lazy = .ok st') : st'.Numbered := by
  obtain ⟨⟨flags, branches, pieces⟩, outer, captures, names⟩ := st
  cases pieces with
  | nil => cases hrepeat
  | cons piece pieces =>
    obtain ⟨node, nest, repeatable⟩ := piece
    obtain ⟨hpiece, hpieces⟩ := List.forall_mem_cons.1 h.level.pieces
    cases repeatable with
    | false => cases hrepeat
    | true =>
      cases hrepeat
      exact ⟨⟨List.forall_mem_cons.2 ⟨Node.numbered_times hpiece _ _ _, hpieces⟩, h.level.branches⟩,
        h.outer⟩

theorem setFlags (h : st.Numbered) (flags : Flags) :
    ReaderState.Numbered { st with level := { st.level with flags := flags } } :=
  ⟨⟨h.level.pieces, h.level.branches⟩, h.outer⟩

theorem setNames (h : st.Numbered) (names : List (String × Nat)) :
    ReaderState.Numbered { st with names := names } := ⟨h.level, h.outer⟩

/-- What opens a group keeps the numbers from one on. -/
theorem readGroup (h : st.Numbered) (cs : List Char) : Keeps (readGroup st cs) := by
  have hempty : (st.push ⟨.empty, 0, false⟩).Numbered := h.push (show Node.empty.Numbered from trivial)
  unfold Regex.readGroup
  dsimp only
  split
  · exact .error _
  · split
    · refine .bind _ fun named => ?_
      split
      · exact .error _
      · exact .ok (h.openCapture.setNames _) _
    · split
      · refine .bind _ fun opened => ?_
        split
        · split
          · exact .error _
          · exact .ok (hempty.setFlags _) _
        · exact .ok (h.openGroup (by simp) _) _
      · exact .ok h.openCapture _

/-- One item of a pattern keeps the numbers from one on, whatever it is. -/
theorem readItem (h : st.Numbered) (c : Char) (cs : List Char) : Keeps (readItem st (c :: cs)) := by
  have hrepeat (min : Nat) (max : Option Nat) (lazy : Bool) (rest : List Char) :
      Keeps (st.repeatLast min max lazy >>= fun st => .ok (st, rest)) := by
    cases hlast : st.repeatLast min max lazy with
    | error e => exact .error e
    | ok st' => exact .ok (h.repeatLast hlast) rest
  have hpush (piece : Piece) (rest : List Char) (hpiece : piece.node.Numbered) :
      Keeps (.ok (st.push piece, rest)) := .ok (h.push hpiece) rest
  unfold Regex.readItem
  dsimp only
  split
  · exact h.readGroup cs
  · cases hclose : st.closeGroup with
    | error e => exact .error e
    | ok st' => exact .ok (h.closeGroup hclose) cs
  · have hnext : ReaderState.Numbered { st with level := st.level.nextBranch } :=
      ⟨h.level.nextBranch, h.outer⟩
    exact .ok hnext cs
  · refine .bind _ fun member => hpush _ _ ?_
    trivial
  · exact hrepeat 0 (some 1) _ _
  · exact hrepeat 0 none _ _
  · exact hrepeat 1 none _ _
  · exact .bind _ fun bounds => hrepeat bounds.1.1 bounds.1.2 _ _
  · refine .bind _ fun atom => hpush _ _ ?_
    cases atom.1 <;> trivial
  · refine .bind _ fun set => hpush _ _ ?_
    trivial
  · refine hpush _ _ ?_
    trivial
  · refine hpush _ _ ?_
    trivial
  · refine hpush _ _ ?_
    trivial

/-- A whole pattern is numbered from one, by induction on the turns of the reader. -/
theorem readItems (h : st.Numbered) (fuel : Nat) (cs : List Char) {st' : ReaderState}
    (hread : readItems fuel st cs = .ok st') : st'.Numbered := by
  induction fuel generalizing st cs with
  | zero =>
    cases hread
    exact h
  | succ fuel ih =>
    rw [Regex.readItems] at hread
    split at hread
    · cases hread
      exact h
    · next hskip =>
      obtain ⟨⟨next, rest⟩, hitem, hrest⟩ := Outcome.bind_eq_ok_iff.1 hread
      cases hcs : st.flags.skip cs with
      | nil => exact absurd hcs hskip
      | cons c ds =>
        rw [hcs] at hitem
        exact ih (h.readItem c ds next rest hitem) rest hrest

end ReaderState.Numbered

/-- The groups of a pattern are numbered from one. -/
theorem numbered_of_read {source : List Char} {pattern : Pattern}
    (h : Pattern.read source = .ok pattern) : pattern.node.Numbered := by
  obtain ⟨st, hread, hfinish⟩ := Outcome.bind_eq_ok_iff.1 h
  have hstart : ReaderState.start.Numbered := ⟨.fresh _, fun _ h => (by cases h)⟩
  obtain ⟨-, -, -, rfl⟩ := finish_eq_ok_iff.1 hfinish
  exact (hstart.readItems _ source hread).level.body

/-! ## Compiled patterns -/

/-- A pattern is compiled just if it is read; the machine is that of the expression. -/
theorem compile_eq_ok_iff {source : List Char} {regex : Regex} :
    compile source = .ok regex ↔
      ∃ pattern, Pattern.read source = .ok pattern ∧
        regex = ⟨pattern.node.machine, pattern.names⟩ := by
  refine Outcome.bind_eq_ok_iff.trans (exists_congr fun pattern => and_congr_right fun _ => ?_)
  exact ⟨fun h => (Except.ok.inj h).symm, fun h => congrArg Except.ok h.symm⟩

theorem exists_compile_iff {source : List Char} :
    (∃ regex, compile source = .ok regex) ↔ ∃ pattern, Pattern.read source = .ok pattern := by
  constructor
  · rintro ⟨regex, h⟩
    obtain ⟨pattern, h, -⟩ := compile_eq_ok_iff.1 h
    exact ⟨pattern, h⟩
  · rintro ⟨pattern, h⟩
    exact ⟨_, compile_eq_ok_iff.2 ⟨pattern, h, rfl⟩⟩

/-- A match starts at the start of the text.  What is found first starts as far to the left as
    possible. -/
def MatchesAtStart (regex : Regex) (text : List Char) : Prop :=
  ∃ m, regex.findFrom text.toArray 0 = some m ∧ m.start = 0

/-- The pattern closes a group that it did not open. -/
def ClosesUnopened (source : List Char) : Prop :=
  compile source = .error (.malformed "the group is not open")

/-- The pattern is well formed, and still is with a closing parenthesis behind it: the parenthesis is
    in a comment. -/
def EndsInComment (source : List Char) : Prop :=
  (∃ regex, compile source = .ok regex) ∧ ∃ regex, compile (source ++ [')']) = .ok regex

/-- A match at the start is one that starts at place zero. -/
theorem matchesAtStart_iff {node : Node} (h : node.Numbered) (names : List (String × Nat))
    (text : List Char) :
    (⟨node.machine, names⟩ : Regex).MatchesAtStart text ↔
      node.machine.StartsAt text.toArray 0 := by
  have hstart {place : Nat} {u : Thread}
      (hlead : (node.machine.thread place).LeadsTo node.machine.program text.toArray u)
      (haccepts : u.accepts node.machine.program = true) : (Match.ofSlots u.slots).start = place := by
    rw [Match.ofSlots, node.lookup_start h hlead haccepts]
    rfl
  constructor
  · rintro ⟨m, hfind, hzero⟩
    obtain ⟨slots, hslots, rfl⟩ := Option.map_eq_some_iff.1 hfind
    obtain ⟨place, -, u, hlead, haccepts, rfl⟩ := Machine.searchFrom_sound hslots
    obtain rfl : place = 0 := (hstart hlead haccepts).symm.trans hzero
    exact ⟨u, hlead, haccepts⟩
  · intro hstarts
    obtain ⟨u, hlead, haccepts, hsearch⟩ := Machine.searchFrom_of_startsAt_zero hstarts
    exact ⟨Match.ofSlots u.slots, Option.map_eq_some_iff.2 ⟨_, hsearch, rfl⟩, hstart hlead haccepts⟩

variable {source : List Char}

/-- A pattern that closes no group of its own is read in the group behind the anchor just if it can
    be read alone, leaves room for the group, and does not end in a comment. -/
theorem read_anchored_iff (hopen : ¬ ClosesUnopened source) (pattern : Pattern) :
    Pattern.read (anchored source) = .ok pattern ↔
      ∃ inner, Pattern.read source = .ok inner ∧ FitsGroup source ∧ ¬ EndsInComment source ∧
        pattern = ⟨.seq (.look .textStart) inner.node, inner.names⟩ := by
  have hread : Pattern.read source ≠ .error (.malformed "the group is not open") := fun h =>
    hopen (congrArg (· >>= _) h)
  rw [read_anchored source pattern hread]
  refine exists_congr fun inner => and_congr_right fun hinner => and_congr_right fun _ => ?_
  have hexists : ∃ pattern, Pattern.read source = .ok pattern := ⟨inner, hinner⟩
  rw [EndsInComment, exists_compile_iff, exists_compile_iff, and_iff_right hexists]

/-- An anchored pattern matches a text just if the pattern matches at its start. -/
theorem isMatch_anchored {regex : Regex} (hopen : ¬ ClosesUnopened source)
    (h : compile (anchored source) = .ok regex) :
    ∃ inner, compile source = .ok inner ∧
      ∀ text, regex.isMatch text = true ↔ inner.MatchesAtStart text := by
  obtain ⟨pattern, hpattern, rfl⟩ := compile_eq_ok_iff.1 h
  obtain ⟨inner, hinner, -, -, rfl⟩ := (read_anchored_iff hopen pattern).1 hpattern
  have hnumbered := numbered_of_read hinner
  refine ⟨_, compile_eq_ok_iff.2 ⟨inner, hinner, rfl⟩, fun text => ?_⟩
  rw [matchesAtStart_iff hnumbered, isMatch, Machine.isSome_searchFrom_iff]
  constructor
  · rintro ⟨place, hplace, hstarts⟩
    exact ((Node.startsAt_anchored_iff hnumbered hplace).1 hstarts).2
  · intro hstarts
    exact ⟨0, Nat.zero_le _,
      (Node.startsAt_anchored_iff hnumbered (Nat.zero_le _)).2 ⟨rfl, hstarts⟩⟩

/-- When a pattern can be anchored, without what becomes of it. -/
theorem exists_compile_anchored_iff (hopen : ¬ ClosesUnopened source) :
    (∃ regex, compile (anchored source) = .ok regex) ↔
      (∃ regex, compile source = .ok regex) ∧ ¬ EndsInComment source ∧ FitsGroup source := by
  rw [exists_compile_iff, exists_compile_iff]
  simp only [read_anchored_iff hopen]
  constructor
  · rintro ⟨_, inner, hinner, hfits, hcomment, -⟩
    exact ⟨⟨inner, hinner⟩, hcomment, hfits⟩
  · rintro ⟨⟨inner, hinner⟩, hcomment, hfits⟩
    exact ⟨_, inner, hinner, hfits, hcomment, rfl⟩

/-! ## Anchoring -/

/-- Anchoring is faithful to every pattern that does not close a group it did not open: it succeeds
    just if the pattern is well formed, does not end in a comment and leaves room for the group; then
    it matches just where the pattern matches at the start of the text; and otherwise the fault is
    that the pattern is no regular expression.  The function `matches` follows the same law. -/
theorem anchoredRegex_faithful (pattern : String) (hopen : ¬ ClosesUnopened pattern.toList) :
    ((∃ regex, Filter.anchoredRegex pattern = .ok regex) ↔
      (∃ inner, compile pattern.toList = .ok inner) ∧ ¬ EndsInComment pattern.toList ∧
        FitsGroup pattern.toList) ∧
    (∀ regex, Filter.anchoredRegex pattern = .ok regex →
      ∃ inner, compile pattern.toList = .ok inner ∧
        ∀ text : String,
          (regex.isMatch text.toList = true ↔ inner.MatchesAtStart text.toList) ∧
          Predicate.call "matches" [.str text, .str pattern] =
            .ok (.bool (regex.isMatch text.toList))) ∧
    ∀ fault, Filter.anchoredRegex pattern = .error fault →
      ∃ problem, fault = .invalidRegex pattern problem ∧
        ∀ text : String,
          Predicate.call "matches" [.str text, .str pattern] =
            .error (.invalidRegex (String.ofList (anchored pattern.toList)) problem) := by
  have hok (regex : Regex) : Filter.anchoredRegex pattern = .ok regex ↔
      compile (anchored pattern.toList) = .ok regex := Outcome.mapError_eq_ok_iff
  have hcall (text : String) : Predicate.call "matches" [.str text, .str pattern] =
      (Predicate.compilePattern (anchored pattern.toList)).map fun regex =>
        .bool (regex.isMatch text.toList) := by
    show (Predicate.compilePattern _ >>= _) = _
    cases Predicate.compilePattern (anchored pattern.toList) <;> rfl
  refine ⟨?_, ?_, ?_⟩
  · simp only [hok]
    exact exists_compile_anchored_iff hopen
  · intro regex hregex
    have hcompile := (hok regex).1 hregex
    obtain ⟨inner, hinner, hmatch⟩ := isMatch_anchored hopen hcompile
    refine ⟨inner, hinner, fun text => ⟨hmatch text.toList, ?_⟩⟩
    rw [hcall, Predicate.compilePattern, hcompile]
    rfl
  · intro fault hfault
    obtain ⟨problem, hproblem, rfl⟩ := Outcome.mapError_eq_error_iff.1 hfault
    refine ⟨problem, rfl, fun text => ?_⟩
    rw [hcall, Predicate.compilePattern, hproblem]
    rfl

/-- Alternatives are anchored as a whole, with a parenthesis in a comment between them. -/
theorem anchoredRegex_faithful_commented :
    ¬ ClosesUnopened "(?x)a#)\n|b".toList ∧
      ∃ regex inner, Filter.anchoredRegex "(?x)a#)\n|b" = .ok regex ∧
        compile "(?x)a#)\n|b".toList = .ok inner ∧
        ∀ text : String, regex.isMatch text.toList = true ↔ inner.MatchesAtStart text.toList := by
  have hopen : ¬ ClosesUnopened "(?x)a#)\n|b".toList := fun h => (by cases h)
  have hcomment : ¬ EndsInComment "(?x)a#)\n|b".toList := by
    rintro ⟨-, regex, h⟩
    cases h
  have hfits : FitsGroup "(?x)a#)\n|b".toList := by
    intro st h
    cases h
    decide
  obtain ⟨hsucceeds, hmatch, -⟩ := anchoredRegex_faithful "(?x)a#)\n|b" hopen
  obtain ⟨regex, hregex⟩ := hsucceeds.2 ⟨⟨_, rfl⟩, hcomment, hfits⟩
  obtain ⟨inner, hinner, hlaw⟩ := hmatch regex hregex
  exact ⟨hopen, regex, inner, hregex, hinner, fun text => (hlaw text).1⟩

/-- The second branch of `a)|(?:b` stands outside the group, so that a pattern that is no regular
    expression matches behind the start of the text; and in `(?x)a#b` the end of the group is in a
    comment, so that a pattern that is one is refused. -/
theorem anchoredRegex_escapes :
    (∃ problem, compile "a)|(?:b".toList = .error problem) ∧
      (∃ regex, Filter.anchoredRegex "a)|(?:b" = .ok regex ∧ regex.isMatch "xb".toList = true) ∧
      (∃ inner, compile "(?x)a#b".toList = .ok inner) ∧
      ∃ fault, Filter.anchoredRegex "(?x)a#b" = .error fault := by
  let node : Node :=
    .alt (.seq (.look .textStart) (.char (.single 'a'))) (.char (.single 'b'))
  let text : Array Char := #['x', 'b']
  have hstarts : node.machine.StartsAt text 1 := by
    have hstep {t u : Thread} (h : u ∈ t.next node.machine.program text) :
        t.Step node.machine.program text u := Thread.mem_next_iff.1 h
    have hsave : (⟨6, 1, []⟩ : Thread).Step node.machine.program text ⟨5, 1, [(0, 1)]⟩ :=
      hstep List.mem_cons_self
    have hsplit : (⟨5, 1, [(0, 1)]⟩ : Thread).Step node.machine.program text ⟨4, 1, [(0, 1)]⟩ :=
      hstep (List.mem_cons_of_mem _ List.mem_cons_self)
    have hchar : (⟨4, 1, [(0, 1)]⟩ : Thread).Step node.machine.program text ⟨1, 2, [(0, 1)]⟩ :=
      hstep List.mem_cons_self
    have hend : (⟨1, 2, [(0, 1)]⟩ : Thread).Step node.machine.program text
        ⟨0, 2, [(1, 2), (0, 1)]⟩ := hstep List.mem_cons_self
    exact ⟨_, .head hsave (.head hsplit (.head hchar (.single hend))), rfl⟩
  refine ⟨⟨_, rfl⟩, ⟨⟨node.machine, []⟩, rfl, ?_⟩, ⟨_, rfl⟩, ⟨_, rfl⟩⟩
  exact (node.machine.isSome_searchFrom_iff text).2 ⟨1, by decide, hstarts⟩

end RuleSieve.Regex
