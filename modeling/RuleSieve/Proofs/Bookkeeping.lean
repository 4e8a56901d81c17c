/-
  The readers in place keep to what they are given.

  For every kind of phrase, what is done in place follows the reading of the phrase (`performs`).  A
  loop is in the middle of a call: so many levels are gone down already, and at its end it goes up as
  many.  For the readers it follows that they come to an end, that they give back every level they
  take, and that their calls are nested (`run_balanced`).
-/
import RuleSieve.Proofs.CallDepth

namespace RuleSieve.Predicate.Descent

variable {stop bound turns : Nat} {ts us : List Lexeme}

/-! ## The readers of phrases -/

/-- The reader that reads the phrase. -/
def owner : Phrase → Reader
  | .whole => .whole
  | .chain level | .more level _ => levelReader level
  | .operand level => operandReader level
  | .negation => .negation
  | .comparison | .links => .comparison
  | .signed => .signed
  | .suffixes _ => .suffixed
  | .args | .argsFrom => .args
  | .primary => .primary

/-- Is the phrase read by a call of its own? -/
def isCalled : Phrase → Bool
  | .chain _ | .more .. | .links | .suffixes _ | .argsFrom => false
  | _ => true

/-- The calls that are active while the phrase is read for the calls `calls`. -/
def active (p : Phrase) (s : State) (calls : List Call) : List Call :=
  if isCalled p then ⟨owner p, s.index, s.depth⟩ :: calls else calls

/-- The state in which the phrase is read for the calls `calls`: a call of its own has been entered. -/
def began (p : Phrase) (s : State) (calls : List Call) : State :=
  if isCalled p then s.enter (active p s calls) else s

/-- Before it goes down, the reader of the phrase calls only readers that come before this one. -/
def rank : Phrase → Nat
  | .chain level => (operandReader level).order + 1
  | .links => Reader.sum.order + 1
  | .argsFrom => Reader.whole.order + 1
  | .more .. | .suffixes _ => 0
  | p => (owner p).order

/-- Of the levels that are gone down already, the reader of the phrase goes so many up in the end. -/
def owed : Phrase → Nat → Nat
  | .chain _, levels | .more .., levels | .suffixes _, levels => levels
  | _, _ => 0

/-- Reads the phrase in place. -/
def perform (stop : Nat) (ts : List Lexeme) (turns : Nat) :
    (p : Phrase) → (levels : Nat) → List Call → Action p.Yield
  | .whole, _, calls => whole stop ts turns calls
  | .chain level, levels, calls => chain stop ts turns level levels calls
  | .operand level, _, calls => operand stop ts turns level calls
  | .more level left, levels, calls => more stop ts turns level left levels calls
  | .negation, _, calls => negation stop ts turns calls
  | .comparison, _, calls => comparison stop ts turns calls
  | .links, _, calls => links stop ts turns calls
  | .signed, _, calls => signed stop ts turns calls
  | .suffixes target, levels, calls => suffixes stop ts turns target levels calls
  | .args, _, calls => args stop ts turns calls
  | .argsFrom, _, calls => argsFrom stop ts turns calls
  | .primary, _, calls => primary stop ts turns calls

/-- The innermost call is `levels` levels down, and where it is not down at all it may call the
    readers before `order`.  There is room for one level more. -/
inductive Ready (order index depth levels : Nat) : List Call → Prop
  | intro {call : Call} {calls : List Call} (hnested : Nested (call :: calls))
      (hindex : call.index ≤ index) (hdepth : depth = call.depth + levels)
      (horder : levels = 0 → order ≤ call.reader.order) (hdeep : levels ≠ 0 → depth ≤ maxDepth)
      (hroom : depth + 1 < Word.count) :
      Ready order index depth levels (call :: calls)

namespace Ready

variable {order order' index index' depth depth' levels : Nat} {calls : List Call}

/-- Calls that are ready to go on lie within each other. -/
theorem nested (h : Ready order index depth levels calls) : Nested calls := by
  cases h with
  | intro hnested => exact hnested

/-- One more level has room in 64 bits, as the depth is bounded by the starting depth and the
    limit. -/
theorem room (h : Ready order index depth levels calls) : depth + 1 < Word.count := by
  cases h with
  | intro _ _ _ _ _ hroom => exact hroom

/-- No more levels are held than were counted. -/
theorem levels_le (h : Ready order index depth levels calls) : levels ≤ depth := by
  cases h with
  | intro _ _ hdepth => omega

/-- A call that was entered at the depth itself holds no level yet. -/
theorem levels_eq_zero {reader : Reader}
    (h : Ready order index depth levels (⟨reader, index', depth⟩ :: calls)) : levels = 0 := by
  cases h with
  | intro _ _ hdepth => exact Nat.left_eq_add.1 hdepth

/-- A call is ready when it begins. -/
theorem called {reader : Reader} (h : Ready order index depth levels calls)
    (horder : levels = 0 → reader.order < order) :
    Ready reader.order index depth 0 (⟨reader, index, depth⟩ :: calls) := by
  cases h with
  | @intro call calls hnested hindex hdepth hcall hdeep hroom =>
    refine .intro (hnested.push ⟨hindex, ?_⟩) (Nat.le_refl _) rfl (fun _ => Nat.le_refl _)
      (fun h => absurd rfl h) hroom
    by_cases hlevels : levels = 0
    · have hsame : depth = call.depth := by omega
      exact .inr ⟨hsame, Nat.lt_of_lt_of_le (horder hlevels) (hcall hlevels)⟩
    · have hdeeper : call.depth < depth := by omega
      exact .inl ⟨hdeeper, hdeep hlevels⟩

/-- Going down holds one more level. -/
theorem down (h : Ready order index depth levels calls) (hdepth : depth < maxDepth) :
    Ready order' index (depth + 1) (levels + 1) calls := by
  cases h with
  | intro hnested hindex hdepth' =>
    have hroom : depth + 1 + 1 < Word.count :=
      Nat.lt_of_le_of_lt (Nat.succ_le_succ hdepth) (by decide : maxDepth + 1 < Word.count)
    exact .intro hnested hindex (by omega) (fun h => absurd h (Nat.succ_ne_zero _)) (fun _ => hdepth)
      hroom

/-- What is ready stays so further on in the tokens, and for a reader that comes earlier in the
    order. -/
theorem later (h : Ready order index depth levels calls) (hindex : index ≤ index')
    (hdepth : depth' = depth) (horder : order' ≤ order) :
    Ready order' index' depth' levels calls := by
  subst hdepth
  cases h with
  | intro hnested hindex' hdepth' horder' hdeep hroom =>
    exact .intro hnested (Nat.le_trans hindex' hindex) hdepth'
      (fun h => Nat.le_trans horder (horder' h)) hdeep hroom

end Ready

/-- With `bound` turns or more, reading the phrase in place follows its reading, wherever the tokens
    `us` are what is left. -/
def Performs (stop : Nat) (ts : List Lexeme) (bound : Nat) (us : List Lexeme) (p : Phrase) : Prop :=
  ∀ turns, bound ≤ turns → ∀ (s : State) (levels : Nat) (calls : List Call), ts.drop s.index = us →
    Ready (rank p) s.index s.depth levels (active p s calls) →
      Follows ts (active p s calls) (began p s calls) (owed p levels) 0
        (perform stop ts turns p levels calls s) (p.read stop ⟨us, s.depth⟩)

/-- What holds of fewer tokens than `us` for all phrases. -/
abbrev PerformsBelow (stop : Nat) (ts : List Lexeme) (bound : Nat) (us : List Lexeme) : Prop :=
  ∀ vs : List Lexeme, vs.length < us.length → ∀ p, Performs stop ts bound vs p

/-- What is performed with so many turns is performed with more. -/
theorem Performs.mono {bound bound' : Nat} {p : Phrase} (h : Performs stop ts bound us p)
    (hle : bound ≤ bound') : Performs stop ts bound' us p :=
  fun turns hturns => h turns (Nat.le_trans hle hturns)

/-- A reader of a phrase that calls another may do so by way of a reader in between: two turns. -/
theorem exists_turns {bound turns : Nat} (h : bound + 2 ≤ turns) :
    ∃ rest, turns = rest + 2 ∧ bound ≤ rest :=
  ⟨turns - 2, by omega, by omega⟩

/-- A reader that is called enters the log and performs what its phrase reads. -/
theorem Performs.called {p : Phrase} {s : State} {order levels : Nat} {calls : List Call}
    (h : Performs stop ts bound us p) (hturns : bound ≤ turns) (hp : isCalled p = true)
    (hus : ts.drop s.index = us)
    (hready : Ready order s.index s.depth levels calls)
    (horder : levels = 0 → (owner p).order < order) :
    Follows ts calls s 0 0 (perform stop ts turns p 0 calls s) (p.read stop ⟨us, s.depth⟩) := by
  -- with a call of its own, the phrase has the order of its reader and owes nothing
  have hactive : active p s calls = ⟨owner p, s.index, s.depth⟩ :: calls := if_pos hp
  have hbegan : began p s calls = s.enter (active p s calls) := if_pos hp
  have hrank : rank p = (owner p).order := by
    cases p with
    | chain | more | links | suffixes | argsFrom => cases hp
    | _ => rfl
  have howed : owed p 0 = 0 := by
    cases p <;> rfl
  have hfollows := h turns hturns s 0 calls hus
  rw [hbegan, hactive, hrank, howed] at hfollows
  have hcalled := hready.called horder
  exact (hfollows hcalled).within hcalled.nested

/-- From further down any reader may be called. -/
theorem Performs.calledBelow {p : Phrase} {s : State} {order levels : Nat} {calls : List Call}
    (h : Performs stop ts bound us p) (hturns : bound ≤ turns) (hp : isCalled p = true)
    (hus : ts.drop s.index = us)
    (hready : Ready order s.index s.depth (levels + 1) calls) :
    Follows ts calls s 0 0 (perform stop ts turns p 0 calls s) (p.read stop ⟨us, s.depth⟩) :=
  h.called hturns hp hus hready fun hlevels => absurd hlevels (Nat.succ_ne_zero levels)

/-- A phrase that is read one level down, as after `not` or after a sign. -/
theorem Performs.lower {p : Phrase} {s : State} {order : Nat} {calls : List Call}
    (h : Performs stop ts bound us p) (hturns : bound ≤ turns) (hp : isCalled p = true)
    (hus : ts.drop s.index = us)
    (hready : Ready order s.index s.depth 0 calls) (build : p.Yield → Term) :
    Follows ts calls s 0 0
      ((goDown stop ts >>= fun _ => perform stop ts turns p 0 calls >>= fun y =>
        goUp 1 >>= fun _ => pure (build y)) s)
      (descend stop us s.depth >>= fun depth =>
        p.read stop ⟨us, depth⟩ >>= fun r => .ok (build r.1, r.2.ascend 1)) := by
  refine .down hready.room hus fun hdepth => ?_
  have hdown : Ready 0 s.down.index s.down.depth 1 calls := hready.down hdepth
  refine .bind (h.calledBelow hturns hp hus hdown) fun y s' hs hdepth' hread => ?_
  have hpos : 0 < s'.depth := hdepth' ▸ Nat.succ_pos _
  exact .up hpos (Nat.sub_add_cancel hpos) rfl

/-! ## Levels -/

/-- A whole term goes down one level, reads a chain of disjunctions, and comes up again. -/
theorem performs_whole (h : Performs stop ts bound us (.chain .or)) :
    Performs stop ts (bound + 2) us .whole := by
  intro turns hmany s levels calls hus hready
  obtain ⟨turns, rfl, hturns⟩ := exists_turns hmany
  obtain rfl : levels = 0 := hready.levels_eq_zero
  show Follows ts _ (s.enter _) 0 0 (whole stop ts (turns + 2) calls s) _
  rw [whole, read_whole]
  refine .enter (.down hready.room hus fun hdepth => .ascend ?_ (Nat.succ_pos _))
  exact h _ (Nat.le_succ_of_le hturns) _ 1 _ hus (hready.down hdepth)

/-- A chain reads its first operand and then goes on. -/
theorem performs_chain {level : Chain} (ih : PerformsBelow stop ts bound us)
    (h : Performs stop ts bound us (.operand level)) :
    Performs stop ts (bound + 2) us (.chain level) := by
  intro turns hmany s levels calls hus hready
  obtain ⟨turns, rfl, hturns⟩ := exists_turns hmany
  show Follows ts calls s levels 0 (chain stop ts (turns + 2) level levels calls s) _
  have hturns' := Nat.le_succ_of_le hturns
  rw [chain, read_chain]
  refine .bind (h.called hturns' rfl hus hready fun _ => Nat.lt_succ_self _)
    fun first s' hs hdepth hread => ?_
  have hlt : (ts.drop s'.index).length < us.length := (length_of_read stop hread).2 rfl
  exact ih _ hlt (.more level first) _ hturns' s' levels calls rfl
    (hready.later hs.index_le hdepth (Nat.zero_le _))

/-- Each operator of a chain costs a level for its right operand, which is given back. -/
theorem performs_more [Addressable ts] {level : Chain} {left : Term} (ih : PerformsBelow stop ts bound us) :
    Performs stop ts (bound + 2) us (.more level left) := by
  intro turns hmany s levels calls hus hready
  obtain ⟨turns, rfl, hturns⟩ := exists_turns hmany
  show Follows ts calls s levels 0 (more stop ts (turns + 2) level left levels calls s) _
  have hturns' := Nat.le_succ_of_le hturns
  rw [more, peek_bind]
  rcases head_cases (level.build? ·.token ≠ none) us with hnone | ⟨lexeme, rest, rfl, hsome⟩
  · have hnone : ∀ lexeme ∈ us.head?, level.build? lexeme.token = none :=
      fun lexeme hhead => not_not.1 (hnone lexeme hhead)
    have hbuild : (ts[s.index]?.map (·.token)).bind level.build? = none := by
      rw [← List.head?_drop, hus, Option.bind_eq_none_iff]
      rintro token htoken
      obtain ⟨lexeme, hhead, rfl⟩ := Option.map_eq_some_iff.1 htoken
      exact hnone lexeme hhead
    rw [hbuild, read_more_none stop hnone]
    exact .up hready.levels_le rfl hus
  · obtain ⟨build, hbuild⟩ := Option.ne_none_iff_exists'.1 hsome
    rw [next_of_cons hus, Option.bind_some, hbuild, read_more_some stop hbuild]
    dsimp only
    rw [bind_of_ok (pass_of_le (index_lt_of_cons hus))]
    refine .pass hus fun hrest => .down (s := s.pass 1) hready.room hrest fun hdepth => ?_
    have hdown : Ready 0 (s.pass 1).index (s.pass 1).down.depth (levels + 1) calls :=
      (hready.later (Nat.le_add_right _ _) rfl (Nat.le_refl _)).down hdepth
    refine .bind ((ih rest (Nat.lt_succ_self _) (.operand level)).calledBelow hturns' rfl hrest hdown)
      fun right s' hs hdepth' hread => .ascend ?_ ?_
    · have hlt : (ts.drop s'.index).length < rest.length := (length_of_read stop hread).2 rfl
      exact ih _ (Nat.lt_succ_of_lt hlt) (.more level (build left right)) _ hturns' s' (levels + 1)
        calls rfl (hdown.later hs.index_le hdepth' (Nat.le_refl _))
    · rw [hdepth']
      exact Nat.succ_pos _

/-- A level below that of whole terms is read by a call of its reader. -/
theorem follows_ofLevel {level : Chain} {s : State} {calls : List Call}
    (h : Performs stop ts bound us (.chain level)) (hturns : bound ≤ turns)
    (hus : ts.drop s.index = us) (hlevel : (operandReader level).order < (levelReader level).order)
    (hready : Ready (levelReader level).order s.index s.depth 0
      (⟨levelReader level, s.index, s.depth⟩ :: calls)) :
    Follows ts (⟨levelReader level, s.index, s.depth⟩ :: calls)
      (s.enter (⟨levelReader level, s.index, s.depth⟩ :: calls)) 0 0
      (ofLevel stop ts (turns + 1) level calls s)
      ((Phrase.chain level).read stop ⟨us, s.depth⟩) := by
  rw [ofLevel]
  exact .enter (h _ hturns _ 0 _ hus (hready.later (Nat.le_refl _) rfl hlevel))

/-- A chain is performed by the reader of its level. -/
theorem Performs.ofLevel {level : Chain} {s : State} {order levels : Nat} {calls : List Call}
    (h : Performs stop ts bound us (.chain level)) (hturns : bound ≤ turns)
    (hus : ts.drop s.index = us) (hlevel : (operandReader level).order < (levelReader level).order)
    (hready : Ready order s.index s.depth levels calls)
    (horder : levels = 0 → (levelReader level).order < order) :
    Follows ts calls s 0 0 (ofLevel stop ts (turns + 1) level calls s)
      ((Phrase.chain level).read stop ⟨us, s.depth⟩) :=
  have hcalled := hready.called horder
  (follows_ofLevel h hturns hus hlevel hcalled).within hcalled.nested

theorem performs_operand {level : Chain}
    (h : Performs stop ts bound us
      (match level with
        | .or => .chain .and
        | .and => .negation
        | .sum => .chain .product
        | .product => .signed)) : Performs stop ts (bound + 2) us (.operand level) := by
  intro turns hmany s levels calls hus hready
  obtain ⟨turns, rfl, hturns⟩ := exists_turns hmany
  obtain rfl : levels = 0 := hready.levels_eq_zero
  show Follows ts _ (s.enter _) 0 0 (operand stop ts (turns + 2) level calls s) _
  rw [read_operand]
  cases level with
  | or =>
    rw [operand]
    exact follows_ofLevel h hturns hus (by decide) hready
  | and =>
    rw [operand]
    exact h _ (Nat.le_succ_of_le hturns) s 0 calls hus hready
  | sum =>
    rw [operand]
    exact follows_ofLevel h hturns hus (by decide) hready
  | product =>
    rw [operand]
    exact h _ (Nat.le_succ_of_le hturns) s 0 calls hus hready

/-- A comparison reads a sum, and the comparisons behind it. -/
theorem performs_comparison (ih : PerformsBelow stop ts bound us)
    (h : Performs stop ts bound us (.chain .sum)) : Performs stop ts (bound + 2) us .comparison := by
  intro turns hmany s levels calls hus hready
  obtain ⟨turns, rfl, hturns⟩ := exists_turns hmany
  obtain rfl : levels = 0 := hready.levels_eq_zero
  show Follows ts _ (s.enter _) 0 0 (comparison stop ts (turns + 2) calls s) _
  rw [comparison, read_comparison]
  refine .enter (.bind (h.ofLevel hturns hus (by decide) hready fun _ => by decide)
    fun first s' hs hdepth hread => ?_)
  have hlt : (ts.drop s'.index).length < us.length := (length_of_read stop hread).2 rfl
  refine .bind (ih _ hlt .links _ (Nat.le_succ_of_le hturns) s' 0 _ rfl
    (hready.later hs.index_le hdepth (by decide))) fun links s'' hs' hdepth' hread' => ?_
  exact .ok (.of_eq rfl rfl) rfl rfl

/-- A primary with the indices and methods after it. -/
theorem follows_suffixed {s : State} {calls : List Call}
    (ih : PerformsBelow stop ts bound us) (h : Performs stop ts bound us .primary)
    (hturns : bound ≤ turns) (hus : ts.drop s.index = us)
    (hready : Ready Reader.suffixed.order s.index s.depth 0
      (⟨.suffixed, s.index, s.depth⟩ :: calls)) :
    Follows ts (⟨.suffixed, s.index, s.depth⟩ :: calls)
      (s.enter (⟨.suffixed, s.index, s.depth⟩ :: calls)) 0 0 (suffixed stop ts (turns + 1) calls s)
      (Phrase.primary.read stop ⟨us, s.depth⟩ >>= fun r => (Phrase.suffixes r.1).read stop r.2) := by
  rw [suffixed]
  refine .enter (.bind (h.called hturns rfl hus hready fun _ => by decide)
    fun first s' hs hdepth hread => ?_)
  have hlt : (ts.drop s'.index).length < us.length := (length_of_read stop hread).2 rfl
  exact ih _ hlt (.suffixes first) _ hturns s' 0 _ rfl (hready.later hs.index_le hdepth (Nat.zero_le _))

/-! ## Negations and comparisons -/

variable [Addressable ts]

/-- A negation costs a level, which is given back. -/
theorem performs_negation (ih : PerformsBelow stop ts bound us)
    (h : Performs stop ts bound us .comparison) : Performs stop ts (bound + 2) us .negation := by
  intro turns hmany s levels calls hus hready
  obtain ⟨turns, rfl, hturns⟩ := exists_turns hmany
  obtain rfl : levels = 0 := hready.levels_eq_zero
  show Follows ts _ (s.enter _) 0 0 (negation stop ts (turns + 2) calls s) _
  have hturns' := Nat.le_succ_of_le hturns
  rw [negation]
  refine .enter (.eat rfl ?_ ?_)
  · intro lexeme rest hcons hnot hrest
    obtain rfl : us = lexeme :: rest := hus.symm.trans hcons
    rw [read_negation_not stop _ hnot]
    exact (ih rest (Nat.lt_succ_self _) .negation).lower hturns' rfl hrest
      (hready.later (Nat.le_succ _) rfl (Nat.le_refl _)) .not
  · intro hnot
    rw [read_negation stop _ (by rw [← hus]; exact hnot)]
    exact h.called hturns' rfl hus hready fun _ => by decide

/-- The tokens of a comparison operator come before what is left after it. -/
theorem drop_of_compareOp? {us : List Lexeme} {op : CompareOp}
    {rest : { rest : List Lexeme // rest.length < us.length }}
    (hop : compareOp? us = some (op, rest)) :
    us.drop op.tokens.length = rest.1 ∧ us.length = op.tokens.length + rest.1.length := by
  obtain ⟨rest, hlt⟩ := rest
  have htokens : tokensOf us = op.tokens ++ tokensOf rest := tokensOf_of_compareOp? hop
  obtain ⟨taken, rfl⟩ : rest <:+ us := suffix_of_compareOp? hop
  have hlength : taken.length = op.tokens.length := by
    simpa [tokensOf] using congrArg List.length htokens
  exact ⟨List.drop_left' hlength, List.length_append.trans (congrArg (· + rest.length) hlength)⟩

theorem performs_links (ih : PerformsBelow stop ts bound us) :
    Performs stop ts (bound + 2) us .links := by
  intro turns hmany s levels calls hus hready
  obtain ⟨turns, rfl, hturns⟩ := exists_turns hmany
  subst hus
  show Follows ts calls s 0 0 (links stop ts (turns + 2) calls s) _
  rw [links]
  cases hop : compareOp? (ts.drop s.index) with
  | none =>
    rw [bind_of_ok (operator_of_none hop), read_links_none stop hop]
    exact .ok (.of_eq rfl rfl) rfl rfl
  | some found =>
    obtain ⟨op, rest⟩ := found
    obtain ⟨hdrop, hlength⟩ := drop_of_compareOp? hop
    have hrest : ts.drop (s.pass op.tokens.length).index = rest.1 := List.drop_drop.symm.trans hdrop
    have hend : s.index + op.tokens.length ≤ ts.length := by
      have hpos : 0 < op.tokens.length := by cases op <;> decide
      have hlength' : ts.length - s.index = op.tokens.length + rest.1.length :=
        List.length_drop.symm.trans hlength
      omega
    rw [bind_of_ok (operator_of_some hop hend), read_links_some stop hop]
    have hready' := hready.later (Nat.le_add_right _ op.tokens.length) rfl (Nat.le_refl _)
    refine .of_onward (k := 0) (.pass hend) rfl ?_
    refine .bind ((ih rest.1 rest.2 (.chain .sum)).ofLevel hturns hrest (by decide) hready'
      fun _ => by decide) fun right s' hs hdepth hread => ?_
    have hlt : (ts.drop s'.index).length < rest.1.length := (length_of_read stop hread).2 rfl
    refine .bind (ih _ (Nat.lt_trans hlt rest.2) .links _ (Nat.le_succ_of_le hturns) s' levels calls
      rfl (hready'.later hs.index_le hdepth (Nat.le_refl _))) fun links s'' hs' hdepth' hread' => ?_
    exact .ok (.of_eq rfl rfl) rfl rfl

/-! ## Signs, indices and methods -/

/-- A sign costs a level, which is given back. -/
theorem performs_signed (ih : PerformsBelow stop ts bound us)
    (h : Performs stop ts bound us .primary) : Performs stop ts (bound + 2) us .signed := by
  intro turns hmany s levels calls hus hready
  obtain ⟨turns, rfl, hturns⟩ := exists_turns hmany
  obtain rfl : levels = 0 := hready.levels_eq_zero
  show Follows ts _ (s.enter _) 0 0 (signed stop ts (turns + 2) calls s) _
  have hturns' := Nat.le_succ_of_le hturns
  rw [signed]
  refine .enter (.eat rfl ?_ fun hminus => .eat rfl ?_ fun hplus => ?_)
  · intro lexeme rest hcons hminus hrest
    obtain rfl : us = lexeme :: rest := hus.symm.trans hcons
    rw [read_signed_minus stop _ hminus]
    exact (ih rest (Nat.lt_succ_self _) .signed).lower hturns' rfl hrest
      (hready.later (Nat.le_succ _) rfl (Nat.le_refl _)) .neg
  · intro lexeme rest hcons hplus hrest
    obtain rfl : us = lexeme :: rest := hus.symm.trans hcons
    rw [read_signed_plus stop _ hplus]
    exact (ih rest (Nat.lt_succ_self _) .signed).lower hturns' rfl hrest
      (hready.later (Nat.le_succ _) rfl (Nat.le_refl _)) id
  · have hsign : ∀ lexeme ∈ us.head?, lexeme.token ≠ .minus ∧ lexeme.token ≠ .plus := by
      rw [← hus]
      exact fun lexeme hhead => ⟨hminus lexeme hhead, hplus lexeme hhead⟩
    rw [read_signed stop _ hsign]
    have hcalled : Ready Reader.suffixed.order s.index s.depth 0
        (⟨.suffixed, s.index, s.depth⟩ :: active .signed s calls) :=
      hready.called fun _ => by decide
    exact (follows_suffixed (s := s.enter _) ih h hturns hus hcalled).within hcalled.nested

theorem afterBracket_of_ne (hnext : ∀ lexeme ∈ us.head?, lexeme.token ≠ .rightBracket) :
    afterBracket stop us = problemAt stop us (.expected .rightBracket) := by
  unfold afterBracket
  split
  · exact absurd rfl (hnext _ rfl)
  · rfl

/-- The name of a method needs a parenthesis behind it. -/
theorem methodHead_of_ident {lexeme : Lexeme} {name : String} (hname : lexeme.token = .ident name)
    (hparen : ∀ paren ∈ us.head?, paren.token ≠ .leftParen) :
    methodHead stop (lexeme :: us) = problemAt stop us (.expected .leftParen) := by
  obtain ⟨offset, text, token⟩ := lexeme
  obtain rfl : token = .ident name := hname
  match us, hparen with
  | [], _ => rfl
  | ⟨_, _, token⟩ :: more, hparen =>
    cases token with
    | leftParen => exact absurd rfl (hparen _ rfl)
    | _ => rfl

theorem methodHead_of_ne {lexeme : Lexeme} (hname : ∀ name, lexeme.token ≠ .ident name) :
    methodHead stop (lexeme :: us) = problemAt stop us .expectedMethod := by
  unfold methodHead
  split
  · next heq =>
    obtain ⟨rfl, -⟩ := List.cons.inj heq
    exact absurd rfl (hname _)
  · next heq =>
    obtain ⟨rfl, -⟩ := List.cons.inj heq
    exact absurd rfl (hname _)
  · rfl

/-- An index after its opening bracket, and the suffixes after it. -/
theorem follows_index {vs : List Lexeme} {s : State} {target : Term} {levels : Nat}
    {calls : List Call} (ih : PerformsBelow stop ts bound vs) (hvs : us.length < vs.length)
    (hturns : bound ≤ turns) (hus : ts.drop s.index = us)
    (hready : Ready 0 s.index s.depth (levels + 1) calls) :
    Follows ts calls s (levels + 1) 1
      ((whole stop ts turns calls >>= fun index => expect stop ts .rightBracket >>= fun _ =>
        suffixes stop ts turns (.index target index) (levels + 1) calls) s)
      (Phrase.whole.read stop ⟨us, s.depth⟩ >>= fun r =>
        afterBracket stop r.2.tokens >>= fun more =>
          (Phrase.suffixes (.index target r.1)).read stop ⟨more, r.2.depth⟩ >>= fun t =>
            .ok (t.1, t.2.ascend 1)) := by
  refine .bind ((ih us hvs .whole).calledBelow hturns rfl hus hready) fun index s' hs hdepth hread => ?_
  have hlt : (ts.drop s'.index).length < us.length := (length_of_read stop hread).2 rfl
  have hready' := hready.later hs.index_le hdepth (Nat.le_refl _)
  refine .expect rfl (fun closing more hcons hclosing hmore => ?_) fun hother => ?_
  · rw [(afterBracket_eq_ok_iff stop).2 ⟨closing, hcons, hclosing⟩]
    rw [hcons, List.length_cons] at hlt
    refine .ascend ?_ (Nat.lt_of_lt_of_le (Nat.succ_pos _) hready'.levels_le)
    exact ih more (by omega) (.suffixes (.index target index)) _ hturns (s'.pass 1) (levels + 1) calls
      hmore (hready'.later (Nat.le_succ _) rfl (Nat.le_refl _))
  · rw [afterBracket_of_ne hother]
    rfl

/-- A method after its dot, and the suffixes after it. -/
theorem follows_method {vs : List Lexeme} {s : State} {target : Term} {levels : Nat}
    {calls : List Call} (ih : PerformsBelow stop ts bound vs) (hvs : us.length < vs.length)
    (hturns : bound ≤ turns) (hus : ts.drop s.index = us)
    (hready : Ready 0 s.index s.depth (levels + 1) calls) :
    Follows ts calls s (levels + 1) 1
      ((methodName stop ts >>= fun name => expect stop ts .leftParen >>= fun _ =>
        args stop ts turns calls >>= fun args =>
          suffixes stop ts turns (.method target name args) (levels + 1) calls) s)
      (methodHead stop us >>= fun head =>
        Phrase.args.read stop ⟨head.2, s.depth⟩ >>= fun r =>
          (Phrase.suffixes (.method target head.1 r.1)).read stop r.2 >>= fun t =>
            .ok (t.1, t.2.ascend 1)) := by
  match us, hvs, hus with
  | [], hvs, hus =>
    rw [bind_of_fail (methodName_of_nil hus), hus]
    exact .error (.of_eq rfl rfl)
  | lexeme :: us, hvs, hus =>
    refine .pass hus fun hrest => ?_
    by_cases hname : ∃ name, lexeme.token = .ident name
    · obtain ⟨name, hname⟩ := hname
      rw [bind_of_ok (methodName_of_ident hus hname)]
      refine .expect rfl (fun paren more hcons hparen hmore => ?_) fun hother => ?_
      · obtain rfl : us = paren :: more := hrest.symm.trans hcons
        rw [(methodHead_eq_ok_iff stop).2 ⟨lexeme, paren, rfl, hname, hparen⟩]
        have hlt : more.length < vs.length := by
          rw [List.length_cons, List.length_cons] at hvs
          omega
        have hmoreReady := hready.later (Nat.le_add_right _ 2) rfl (Nat.le_refl _)
        refine .bind ((ih more hlt .args).calledBelow hturns rfl hmore hmoreReady)
          fun args s' hs hdepth hread => ?_
        have hlt' : (ts.drop s'.index).length < more.length := (length_of_read stop hread).2 rfl
        have hready' := hmoreReady.later hs.index_le hdepth (Nat.le_refl _)
        refine .ascend ?_ (Nat.lt_of_lt_of_le (Nat.succ_pos _) hready'.levels_le)
        exact ih _ (Nat.lt_trans hlt' hlt) (.suffixes (.method target name args)) _ hturns s'
          (levels + 1) calls rfl hready'
      · rw [hrest] at hother ⊢
        rw [methodHead_of_ident hname hother]
        rfl
    · rw [bind_of_fail (methodName_of_ne hus (not_exists.1 hname)),
        methodHead_of_ne (not_exists.1 hname), hrest]
      exact .error (.of_eq rfl rfl)

/-- Suffixes hold their levels until the last of them was read, and give them back together. -/
theorem performs_suffixes {target : Term} (ih : PerformsBelow stop ts bound us) :
    Performs stop ts (bound + 2) us (.suffixes target) := by
  intro turns hmany s levels calls hus hready
  obtain ⟨turns, rfl, hturns⟩ := exists_turns hmany
  show Follows ts calls s levels 0 (suffixes stop ts (turns + 2) target levels calls s) _
  have hturns' := Nat.le_succ_of_le hturns
  rw [suffixes]
  rcases head_cases₂ (·.token = .leftBracket) (·.token = .dot) us with
    hbare | ⟨lexeme, rest, rfl, hsuffix⟩
  · have hnext : ∀ lexeme ∈ (ts.drop s.index).head?,
        lexeme.token ≠ .leftBracket ∧ lexeme.token ≠ .dot := by
      rw [hus]
      exact hbare
    rw [bind_of_ok (suffixLevels_of_none levels hnext), read_suffixes_none stop hbare]
    refine .eat rfl ?_ fun _ => .eat rfl ?_ fun _ => .up hready.levels_le rfl hus
    · intro lexeme rest hcons hbracket
      exact absurd hbracket (hnext lexeme (by rw [hcons]; rfl)).1
    · intro lexeme rest hcons hdot
      exact absurd hdot (hnext lexeme (by rw [hcons]; rfl)).2
  · rw [suffixLevels_bind hus hsuffix]
    rcases hsuffix with hbracket | hdot
    · rw [read_suffixes_index stop hbracket]
      refine .down hready.room hus fun hdepth => .eat rfl (fun lexeme' rest' hcons _ hrest => ?_) fun hother => ?_
      · obtain ⟨rfl, rfl⟩ := List.cons.inj (hus.symm.trans hcons)
        exact follows_index ih (Nat.lt_succ_self _) hturns' hrest
          ((hready.down hdepth).later (Nat.le_succ _) rfl (Nat.le_refl _))
      · exact absurd hbracket (hother lexeme (by rw [State.down, hus]; rfl))
    · rw [read_suffixes_method stop hdot]
      refine .down hready.room hus fun hdepth => .eat rfl (fun lexeme' rest' hcons hbracket _ => ?_) fun _ =>
        .eat rfl (fun lexeme' rest' hcons _ hrest => ?_) fun hother => ?_
      · obtain ⟨rfl, rfl⟩ := List.cons.inj (hus.symm.trans hcons)
        exact absurd (hbracket.symm.trans hdot) (by simp)
      · obtain ⟨rfl, rfl⟩ := List.cons.inj (hus.symm.trans hcons)
        exact follows_method ih (Nat.lt_succ_self _) hturns' hrest
          ((hready.down hdepth).later (Nat.le_succ _) rfl (Nat.le_refl _))
      · exact absurd hdot (hother lexeme (by rw [State.down, hus]; rfl))

/-! ## Arguments and primaries -/

theorem performs_args (h : Performs stop ts bound us .argsFrom) :
    Performs stop ts (bound + 2) us .args := by
  intro turns hmany s levels calls hus hready
  obtain ⟨turns, rfl, hturns⟩ := exists_turns hmany
  obtain rfl : levels = 0 := hready.levels_eq_zero
  show Follows ts _ (s.enter _) 0 0 (args stop ts (turns + 2) calls s) _
  rw [args]
  refine .enter (.eat rfl (fun lexeme rest hcons hparen hrest => ?_) fun hparen => ?_)
  · obtain rfl : us = lexeme :: rest := hus.symm.trans hcons
    rw [read_args_none stop hparen, ← hrest]
    exact .ok (.of_eq rfl rfl) rfl rfl
  · rw [read_args stop _ (by rw [← hus]; exact hparen)]
    exact h _ (Nat.le_succ_of_le hturns) _ 0 _ hus (hready.later (Nat.le_refl _) rfl (by decide))

/-- Arguments are read one by one, at the depth of the first. -/
theorem performs_argsFrom (ih : PerformsBelow stop ts bound us)
    (h : Performs stop ts bound us .whole) : Performs stop ts (bound + 2) us .argsFrom := by
  intro turns hmany s levels calls hus hready
  obtain ⟨turns, rfl, hturns⟩ := exists_turns hmany
  show Follows ts calls s 0 0 (argsFrom stop ts (turns + 2) calls s) _
  have hturns' := Nat.le_succ_of_le hturns
  rw [argsFrom, read_argsFrom]
  refine .bind (h.called hturns' rfl hus hready fun _ => by decide) fun arg s' hs hdepth hread => ?_
  have hlt : (ts.drop s'.index).length < us.length := (length_of_read stop hread).2 rfl
  refine .eat rfl (fun lexeme rest hcons hparen hrest => ?_) fun hparen =>
    .expect rfl (fun lexeme rest hcons hcomma hrest => ?_) fun hcomma => ?_
  · obtain ⟨offset, text, token⟩ := lexeme
    obtain rfl : token = .rightParen := hparen
    simp only [hcons]
    rw [← hrest]
    exact .ok (.of_eq rfl rfl) rfl rfl
  · obtain ⟨offset, text, token⟩ := lexeme
    obtain rfl : token = .comma := hcomma
    simp only [hcons]
    rw [hcons, List.length_cons] at hlt
    have hready' := hready.later (Nat.le_trans hs.index_le (Nat.le_succ _)) hdepth (Nat.le_refl _)
    exact .bind (ih rest (by omega) .argsFrom _ hturns' (s'.pass 1) levels calls hrest hready')
      fun args s'' hs' hdepth' hread' => .ok (.of_eq rfl rfl) rfl rfl
  · dsimp only
    split
    · next heq => exact absurd rfl (hparen _ (by rw [heq]; rfl))
    · next heq => exact absurd rfl (hcomma _ (by rw [heq]; rfl))
    · rfl

/-- A name that is not called, after which a parenthesis may stand all the same. -/
theorem follows_name {base : List Call} {s : State} {name : String} {x : Action Term}
    (hus : ts.drop s.index = us)
    (hcall : ∀ paren ∈ us.head?, paren.token = .leftParen → name.startsWith "$" = true) :
    Follows ts base s 0 0
      ((if name.startsWith "$" = true then pure (.name name)
        else eat ts .leftParen >>= fun found =>
          if found = true then x else pure (.name name) : Action Term) s)
      (.ok (.name name, ⟨us, s.depth⟩)) := by
  have hname : Follows ts base s 0 0 ((pure (.name name) : Action Term) s)
      (.ok (.name name, ⟨us, s.depth⟩)) := by
    subst hus
    exact .ok (.of_eq rfl rfl) rfl rfl
  by_cases hdollar : name.startsWith "$" = true
  · rw [if_pos hdollar]
    exact hname
  · rw [if_neg hdollar]
    refine .eat rfl (fun paren rest hcons hparen _ => ?_) fun _ => hname
    exact absurd (hcall paren (by rw [← hus, hcons]; rfl) hparen) hdollar

/-- A name that is called. -/
theorem follows_call {vs : List Lexeme} {s : State} {calls : List Call} {paren : Lexeme}
    {name : String} (ih : PerformsBelow stop ts bound vs) (hvs : us.length < vs.length)
    (hturns : bound ≤ turns)
    (hus : ts.drop s.index = paren :: us) (hparen : paren.token = .leftParen)
    (hdollar : name.startsWith "$" = false)
    (hready : Ready Reader.primary.order s.index s.depth 0 calls) :
    Follows ts calls s 0 0
      ((if name.startsWith "$" = true then pure (.name name)
        else eat ts .leftParen >>= fun found =>
          if found = true then args stop ts turns calls >>= fun args => pure (.call name args)
          else pure (.name name) : Action Term) s)
      (Phrase.args.read stop ⟨us, s.depth⟩ >>= fun r => .ok (.call name r.1, r.2)) := by
  rw [if_neg (by simp [hdollar])]
  refine .eat rfl (fun paren' more hcons _ hmore => ?_) fun hother => ?_
  · obtain ⟨rfl, rfl⟩ := List.cons.inj (hus.symm.trans hcons)
    have hready' := hready.later (Nat.le_succ _) rfl (Nat.le_refl _)
    refine .bind ((ih us hvs .args).called hturns rfl hmore hready' fun _ => by decide)
      fun args s' hs hdepth hread => ?_
    exact .ok (.of_eq rfl rfl) rfl rfl
  · exact absurd hparen (hother paren (by rw [hus]; rfl))

/-- A term in parentheses, after the opening one. -/
theorem follows_paren {vs : List Lexeme} {s : State} {calls : List Call}
    (ih : PerformsBelow stop ts bound vs) (hvs : us.length < vs.length) (hturns : bound ≤ turns)
    (hus : ts.drop s.index = us)
    (hready : Ready Reader.primary.order s.index s.depth 0 calls) :
    Follows ts calls s 0 0
      ((whole stop ts turns calls >>= fun term => expect stop ts .rightParen >>= fun _ => pure term) s)
      (Phrase.whole.read stop ⟨us, s.depth⟩ >>= fun r =>
        match r.2.tokens with
        | ⟨_, _, .rightParen⟩ :: more => .ok (r.1, ⟨more, r.2.depth⟩)
        | more => problemAt stop more (.expected .rightParen)) := by
  refine .bind ((ih us hvs .whole).called hturns rfl hus hready fun _ => by decide)
    fun term s' hs hdepth hread => ?_
  refine .expect rfl (fun closing more hcons hclosing hmore => ?_) fun hother => ?_
  · obtain ⟨offset, text, token⟩ := closing
    obtain rfl : token = .rightParen := hclosing
    simp only [hcons]
    rw [← hmore]
    exact .ok (.of_eq rfl rfl) rfl rfl
  · dsimp only
    split
    · next heq => exact absurd rfl (hother _ (by rw [heq]; rfl))
    · rfl

/-- A primary goes down only between parentheses. -/
theorem performs_primary (ih : PerformsBelow stop ts bound us) :
    Performs stop ts (bound + 2) us .primary := by
  intro turns hmany s levels calls hus hready
  obtain ⟨turns, rfl, hturns⟩ := exists_turns hmany
  obtain rfl : levels = 0 := hready.levels_eq_zero
  show Follows ts _ (s.enter (⟨.primary, s.index, s.depth⟩ :: calls)) 0 0
    (primary stop ts (turns + 2) calls s) _
  have hturns' := Nat.le_succ_of_le hturns
  rw [primary]
  refine .enter ?_
  have hus' : ts.drop (s.enter (⟨.primary, s.index, s.depth⟩ :: calls)).index = us := hus
  have hready' := hready.later (Nat.le_succ s.index) rfl (Nat.le_refl _)
  rw [get_bind]
  rcases primary_cases us with hbad | ⟨lexeme, rest, value, rfl, hvalue⟩ |
    ⟨lexeme, rest, name, rfl, hname, hcall⟩ |
    ⟨lexeme, paren, rest, name, rfl, hname, hparen, hdollar⟩ | ⟨lexeme, rest, rfl, hparen⟩
  · cases us with
    | nil =>
      rw [bind_of_ok (advance_of_nil hus'), read_primary_nil, hus']
      exact .error (.of_eq rfl rfl)
    | cons lexeme rest =>
      obtain ⟨hliteral, hident, hparen⟩ := hbad lexeme rfl
      rw [bind_of_ok (advance_of_cons hus'), read_primary_unexpected stop hliteral hident hparen, hus']
      refine .pass hus' fun _ => ?_
      cases htoken : lexeme.token with
      | int | float | str | true | false => cases htoken ▸ hliteral
      | ident name => exact absurd htoken (hident name)
      | leftParen => exact absurd htoken hparen
      | _ => exact .error (.of_eq rfl rfl)
  · rw [bind_of_ok (advance_of_cons hus'), read_primary_literal stop hvalue]
    refine .pass hus' fun hrest => ?_
    rw [← hrest]
    cases htoken : lexeme.token with
    | int | float | str | true | false =>
      rw [htoken] at hvalue
      obtain rfl := Option.some.inj hvalue
      exact .ok (.of_eq rfl rfl) rfl rfl
    | _ => cases htoken ▸ hvalue
  · rw [bind_of_ok (advance_of_cons hus'), read_primary_name stop hname hcall, hname]
    exact .pass hus' fun hrest => follows_name hrest hcall
  · rw [bind_of_ok (advance_of_cons hus'), read_primary_call stop hname hparen hdollar, hname]
    refine .pass hus' fun hrest => follows_call ih ?_ hturns' hrest hparen hdollar hready'
    rw [List.length_cons, List.length_cons]
    omega
  · rw [bind_of_ok (advance_of_cons hus'), read_primary_paren stop hparen, hparen]
    exact .pass hus' fun hrest => follows_paren ih (Nat.lt_succ_self _) hturns' hrest hready'

/-! ## All phrases -/

/-- With so many turns the phrase is read from the tokens. -/
def need (us : List Lexeme) (p : Phrase) : Nat := 32 * us.length + 2 * p.order + 2

/-- Whatever is read in place is read as from what is left of the tokens. -/
theorem performs (stop : Nat) (ts us : List Lexeme) [Addressable ts] (p : Phrase) :
    Performs stop ts (need us p) us p := by
  induction us, p using phrase_induction with
  | step us p ih =>
    -- all that the reader of the phrase calls makes do with two turns less
    have hbelow : PerformsBelow stop ts (32 * us.length + 2 * p.order) us := by
      intro vs hvs q
      have horder := q.order_le
      exact (ih vs q (.inl hvs)).mono (by unfold need; omega)
    have hsame (q : Phrase) (hq : q.order < p.order) :
        Performs stop ts (32 * us.length + 2 * p.order) us q :=
      (ih us q (.inr ⟨rfl, hq⟩)).mono (by unfold need; omega)
    unfold need
    cases p with
    | whole => exact performs_whole (hsame _ (by decide))
    | chain level => exact performs_chain hbelow (hsame _ (by cases level <;> decide))
    | operand level => exact performs_operand (by cases level <;> exact hsame _ (by decide))
    | more level left => exact performs_more hbelow
    | negation => exact performs_negation hbelow (hsame _ (by decide))
    | comparison => exact performs_comparison hbelow (hsame _ (by decide))
    | links => exact performs_links hbelow
    | signed => exact performs_signed hbelow (hsame _ (by decide))
    | primary => exact performs_primary hbelow
    | suffixes target => exact performs_suffixes hbelow
    | args => exact performs_args (hsame _ (by decide))
    | argsFrom => exact performs_argsFrom hbelow (hsame _ (by decide))

/-! ## The readers -/

/-- What the reader makes of what is left of the tokens. -/
def read (stop : Nat) : (reader : Reader) → Cursor → Except Error (reader.Yield × Cursor)
  | .whole => Phrase.whole.read stop
  | .conjunction => (Phrase.chain .and).read stop
  | .negation => Phrase.negation.read stop
  | .comparison => Phrase.comparison.read stop
  | .sum => (Phrase.chain .sum).read stop
  | .product => (Phrase.chain .product).read stop
  | .signed => Phrase.signed.read stop
  | .suffixed => fun c =>
    Phrase.primary.read stop c >>= fun r => (Phrase.suffixes r.1).read stop r.2
  | .args => Phrase.args.read stop
  | .primary => Phrase.primary.read stop

/-- Every reader goes on. -/
theorem length_of_read_reader {reader : Reader} {c c' : Cursor} {y : reader.Yield}
    (h : read stop reader c = .ok (y, c')) : c'.tokens.length < c.tokens.length := by
  cases reader with
  | whole => exact (length_of_read stop (p := .whole) h).2 rfl
  | conjunction => exact (length_of_read stop (p := .chain .and) h).2 rfl
  | negation => exact (length_of_read stop (p := .negation) h).2 rfl
  | comparison => exact (length_of_read stop (p := .comparison) h).2 rfl
  | sum => exact (length_of_read stop (p := .chain .sum) h).2 rfl
  | product => exact (length_of_read stop (p := .chain .product) h).2 rfl
  | signed => exact (length_of_read stop (p := .signed) h).2 rfl
  | suffixed =>
    obtain ⟨r, hprimary, hsuffixes⟩ := Outcome.bind_eq_ok_iff.1 h
    have hlt : r.2.tokens.length < c.tokens.length := (length_of_read stop hprimary).2 rfl
    exact Nat.lt_of_le_of_lt (length_of_read stop hsuffixes).1 hlt
  | args => exact (length_of_read stop (p := .args) h).2 rfl
  | primary => exact (length_of_read stop (p := .primary) h).2 rfl

/-- With so many turns a reader comes to an end, whatever the tokens from the index on are. -/
def enough (ts : List Lexeme) (index : Nat) : Nat := 32 * (ts.length - index) + 32

/-- A reader that is called by no other does in place what it makes of the tokens. -/
theorem follows_run (stop : Nat) (ts : List Lexeme) [Addressable ts] (reader : Reader) (s : State)
    (hroom : s.depth + 1 < Word.count) :
    Follows ts [⟨reader, s.index, s.depth⟩] (s.enter [⟨reader, s.index, s.depth⟩]) 0 0
      (run stop ts reader (enough ts s.index) [] s)
      (read stop reader ⟨ts.drop s.index, s.depth⟩) := by
  have hready : Ready reader.order s.index s.depth 0 [⟨reader, s.index, s.depth⟩] :=
    .intro (List.pairwise_singleton _ _) (Nat.le_refl _) rfl (fun _ => Nat.le_refl _)
      (fun h => absurd rfl h) hroom
  have hphrase (p : Phrase) : Performs stop ts (enough ts s.index - 1) (ts.drop s.index) p := by
    refine (performs stop ts _ p).mono ?_
    have horder := p.order_le
    simp only [need, enough, List.length_drop]
    omega
  have hturns : enough ts s.index - 1 ≤ enough ts s.index := Nat.sub_le _ _
  cases reader with
  | whole => exact hphrase .whole _ hturns s 0 [] rfl hready
  | conjunction => exact follows_ofLevel (hphrase (.chain .and)) (Nat.le_refl _) rfl (by decide) hready
  | negation => exact hphrase .negation _ hturns s 0 [] rfl hready
  | comparison => exact hphrase .comparison _ hturns s 0 [] rfl hready
  | sum => exact follows_ofLevel (hphrase (.chain .sum)) (Nat.le_refl _) rfl (by decide) hready
  | product =>
    exact follows_ofLevel (hphrase (.chain .product)) (Nat.le_refl _) rfl (by decide) hready
  | signed => exact hphrase .signed _ hturns s 0 [] rfl hready
  | suffixed =>
    refine follows_suffixed (fun vs hvs p => (performs stop ts vs p).mono ?_) (hphrase .primary)
      (Nat.le_refl _) rfl hready
    have horder := p.order_le
    simp only [need, enough, List.length_drop] at hvs ⊢
    omega
  | args => exact hphrase .args _ hturns s 0 [] rfl hready
  | primary => exact hphrase .primary _ hturns s 0 [] rfl hready

/-- **A reader comes to an end wherever it begins, and what it goes down it goes up again.**  Given
    enough turns, it makes of the tokens what is made of them when they are taken from a list; no index
    or depth leaves 64 bits, and it never goes up further than it is deep.  How many more turns it is
    given makes no difference.  The index neither goes back nor past the end.  Where a reader is done, it
    has passed over a token at least and is as deep as it was.

    Whenever one of the readers is entered, itself first of all, the active calls are nested: a reader
    that is active twice has gone down in between, and there is only so much room for calls.  Those that
    are deeper than the first of them are not deeper than is allowed, wherever that begins; if it begins
    no deeper than is allowed, none of them is. -/
theorem run_balanced (stop : Nat) (ts : List Lexeme) (hts : ts.length < Word.count) (reader : Reader)
    (index depth : Nat) (hdepth : depth + 1 < Word.count) :
    ∃ (outcome : Except Error reader.Yield) (final : State),
      (∀ turns, enough ts index ≤ turns →
        run stop ts reader turns [] ⟨index, depth, []⟩ = some (outcome.mapError .problem, final)) ∧
      read stop reader ⟨ts.drop index, depth⟩ =
        outcome.map (·, ⟨ts.drop final.index, final.depth⟩) ∧
      index ≤ final.index ∧ final.index ≤ max index ts.length ∧
      (∀ y, outcome = .ok y →
        index < final.index ∧ final.index ≤ ts.length ∧ final.depth = depth) ∧
      final.entered.getLast? = some [⟨reader, index, depth⟩] ∧
      (∀ calls ∈ final.entered, Bounded ⟨reader, index, depth⟩ calls) ∧
      (∀ calls ∈ final.entered, ∀ call ∈ calls, depth < call.depth → call.depth ≤ maxDepth) ∧
      (depth ≤ maxDepth → ∀ calls ∈ final.entered, ∀ call ∈ calls, call.depth ≤ maxDepth) := by
  have : Addressable ts := ⟨hts⟩
  have hfollows := follows_run stop ts reader ⟨index, depth, []⟩ hdepth
  have hmore (turns : Nat) (hturns : enough ts index ≤ turns) :=
    run_extends stop ts reader hturns [] ⟨index, depth, []⟩
  generalize hread : read stop reader ⟨ts.drop index, depth⟩ = reading at hfollows ⊢
  generalize run stop ts reader (enough ts index) [] ⟨index, depth, []⟩ = done at hfollows hmore
  have hcalls {final : State} (hs : Onward ts [⟨reader, index, depth⟩]
      (State.enter ⟨index, depth, []⟩ [⟨reader, index, depth⟩]) final) :
      final.entered.getLast? = some [⟨reader, index, depth⟩] ∧
      (∀ calls ∈ final.entered, Bounded ⟨reader, index, depth⟩ calls) ∧
      (∀ calls ∈ final.entered, ∀ call ∈ calls, depth < call.depth → call.depth ≤ maxDepth) ∧
      (depth ≤ maxDepth → ∀ calls ∈ final.entered, ∀ call ∈ calls, call.depth ≤ maxDepth) := by
    obtain ⟨hfirst, hnested⟩ := hs.entered_eq rfl
    exact ⟨hfirst, fun calls hmem => (hnested calls hmem).2.bounded (hnested calls hmem).1,
      fun calls hmem _ => (hnested calls hmem).2.deeper_le (hnested calls hmem).1,
      fun hallowed calls hmem => (hnested calls hmem).2.depth_le (hnested calls hmem).1 hallowed⟩
  cases hfollows with
  | @ok y final depth' hs hlevels hrisen =>
    have hsame : final.depth = depth := hlevels
    obtain rfl : depth' = depth := hrisen
    have hlt := length_of_read_reader hread
    simp only [List.length_drop] at hlt
    have hend : final.index ≤ max index ts.length := hs.index_end
    refine ⟨.ok y, final, fun turns hturns => hmore turns hturns _ rfl, ?_, hs.index_le, hend,
      fun _ _ => ⟨by omega, by omega, hsame⟩, hcalls hs⟩
    rw [hsame]
    rfl
  | @error e final hs =>
    exact ⟨.error e, final, fun turns hturns => hmore turns hturns _ rfl, rfl, hs.index_le,
      hs.index_end, fun _ heq => (nomatch heq), hcalls hs⟩

/-- The tokens of `(1)`. -/
def parenthesized : List Lexeme :=
  [⟨0, ['('], .leftParen⟩, ⟨1, ['1'], .int 1⟩, ⟨2, [')'], .rightParen⟩]

/-- The readers between one of whole terms and one of primaries, the innermost first. -/
def readersBelow : List Reader :=
  [.primary, .suffixed, .signed, .product, .sum, .comparison, .negation, .conjunction]

/-- The calls that are active when the number is read, 254 levels down. -/
def deepest : List Call :=
  readersBelow.map (⟨·, 1, 256⟩) ++ ⟨.whole, 1, 255⟩ ::
    (readersBelow.map (⟨·, 0, 255⟩) ++ [⟨.whole, 0, 254⟩])

/-- Is there a term, where did the reader stop, how deep is it, and which calls were active last? -/
def summary (done : Except Failure Term × State) : Bool × Nat × Nat × Option (List Call) :=
  (done.1 matches .ok _, done.2.index, done.2.depth, done.2.entered.head?)

/-- The term in parentheses is read by a second reader of whole terms within the first one, as deep as
    is allowed. -/
theorem run_balanced_parenthesized :
    parenthesized.length < Word.count ∧ 254 + 1 < Word.count ∧
    ∃ (term : Term) (final : State),
      (∀ turns, enough parenthesized 0 ≤ turns →
        run 3 parenthesized .whole turns [] ⟨0, 254, []⟩ = some (.ok term, final)) ∧
      final.index = 3 ∧ final.depth = 254 ∧ deepest ∈ final.entered ∧
      Bounded ⟨.whole, 0, 254⟩ deepest ∧ ∀ call ∈ deepest, call.depth ≤ maxDepth := by
  have hlength : parenthesized.length < Word.count := by decide
  obtain ⟨outcome, final, hrun, -, -, -, -, -, hbounded, -, hdeep⟩ :=
    run_balanced 3 parenthesized hlength .whole 0 254 (by decide)
  have hdone : (run 3 parenthesized .whole (enough parenthesized 0) [] ⟨0, 254, []⟩).map summary =
      some (true, 3, 254, some deepest) := by
    decide +kernel
  rw [hrun _ (Nat.le_refl _)] at hdone
  simp only [summary, Option.map_some, Option.some.injEq, Prod.mk.injEq] at hdone
  obtain ⟨hok, hindex, hdepth, hlast⟩ := hdone
  have hmem : deepest ∈ final.entered := List.mem_of_mem_head? hlast
  cases outcome with
  | error e => cases hok
  | ok term =>
    exact ⟨hlength, by decide, term, final, hrun, hindex, hdepth, hmem, hbounded _ hmem,
      hdeep (by decide) _ hmem⟩

-- a reader that begins deeper than is allowed calls others only where it is
example :
    (run 1 [⟨0, ['1'], .int 1⟩] .conjunction 64 [] ⟨0, 300, []⟩).map summary =
      some (true, 1, 300, some (readersBelow.map (⟨·, 0, 300⟩))) := by
  decide +kernel

end RuleSieve.Predicate.Descent
