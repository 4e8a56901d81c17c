/-
  That the readers accept every phrase the grammar derives.

  Two things about a phrase decide how it is read: the token it begins with, and the token after it.
  `Token.opens` and `Phrase.opens` order the first by what stands deepest to the left;
  `Token.reach` and `Phrase.rank` order the second by how tightly operators bind.  A phrase ends
  where the next token binds more loosely than anything in it (`Stops`).  Between such ends the
  readers follow a derivation step by step, and only the depth can be in the way (`Ends`).  So a
  source is read if its lexemes derive a term (`parse_of_derives`).
-/
import RuleSieve.Proofs.Grammar

namespace RuleSieve.Predicate

/-! ## How phrases begin -/

/-- The first kind of phrase that the token can begin: a primary, a signed term, a negation, or
    none. -/
def Token.opens : Token → Nat
  | .int _ | .float _ | .str _ | .true | .false | .ident _ | .leftParen => 0
  | .plus | .minus => 1
  | .not => 2
  | _ => 3

/-- The last kind of token that the phrase can begin with; what goes on after a term can begin with
    any. -/
def Phrase.opens : Phrase → Nat
  | .primary => 0
  | .signed | .operand .product | .chain .product | .operand .sum | .chain .sum | .comparison => 1
  | .negation | .operand .and | .chain .and | .operand .or | .chain .or | .whole | .argsFrom => 2
  | _ => 3

/-- A literal can begin a primary. -/
theorem Token.opens_of_literal? {t : Token} {value : Value} (h : t.literal? = some value) :
    t.opens = 0 := by
  cases t <;> first | rfl | cases h

/-- A phrase begins with a token that can begin it. -/
theorem Derives.begins {p : Phrase} {ts : List Token} {y : p.Yield} {n : Nat}
    (h : Derives p ts y n) : p.opens ≤ 2 → ∃ t us, ts = t :: us ∧ t.opens ≤ p.opens := by
  -- a phrase begins like the phrase within it that stands first
  have hwiden {p q : Phrase} {ts : List Token} (hq : q.opens ≤ p.opens)
      (ih : q.opens ≤ 2 → ∃ t us, ts = t :: us ∧ t.opens ≤ q.opens) (vs : List Token)
      (hp : p.opens ≤ 2) : ∃ t us, ts ++ vs = t :: us ∧ t.opens ≤ p.opens := by
    obtain ⟨t, us, rfl, ht⟩ := ih (Nat.le_trans hq hp)
    exact ⟨t, us ++ vs, rfl, Nat.le_trans ht hq⟩
  induction h with
  | whole _ ih => simpa using hwiden (p := .whole) (Nat.le_refl _) ih []
  | @chain level _ _ _ _ _ _ _ _ ih _ =>
    exact hwiden (by cases level <;> decide) ih _
  | noMore | more | noLinks | link | noSuffixes | index | method | noArgs | args =>
    exact fun hp => absurd hp (by simp [Phrase.opens])
  | conjunction _ ih | conjunct _ ih | summand _ ih | factor _ ih => exact ih
  | not => exact fun _ => ⟨_, _, rfl, Nat.le_refl _⟩
  | comparison _ ih =>
    simpa using hwiden (p := .negation) (q := .comparison) (by decide) ih []
  | sum _ ih => exact ih
  | compare _ _ ih _ => exact hwiden (p := .comparison) (Nat.le_refl _) ih _
  | minus | plus => exact fun _ => ⟨_, _, rfl, Nat.le_refl _⟩
  | unsigned _ _ ih _ => exact hwiden (p := .signed) (q := .primary) (by decide) ih _
  | lastArg _ ih => exact hwiden (p := .argsFrom) (q := .whole) (Nat.le_refl _) ih _
  | arg _ _ ih _ => exact hwiden (p := .argsFrom) (q := .whole) (Nat.le_refl _) ih _
  | literal hliteral =>
    exact fun _ => ⟨_, _, rfl, Nat.le_of_eq (Token.opens_of_literal? hliteral)⟩
  | name | call | parens => exact fun _ => ⟨_, _, rfl, Nat.le_refl _⟩

/-! ## Where phrases end -/

/-- The tightest phrase that the token carries on when it stands behind it, counted like
    `Phrase.rank`. -/
def Token.reach : Token → Nat
  | .leftParen => 1
  | .leftBracket | .dot => 2
  | .star | .slash | .doubleSlash | .percent => 3
  | .plus | .minus => 4
  | .equal | .notEqual | .less | .lessEqual | .greater | .greaterEqual | .tilde | .within | .not => 5
  | .and => 6
  | .or => 7
  | _ => 8

/-- How loosely a phrase holds together; arguments end with a parenthesis of their own. -/
def Phrase.rank : Phrase → Nat
  | .args | .argsFrom => 0
  | .primary => 1
  | .suffixes _ | .signed | .operand .product => 2
  | .more .product _ | .chain .product | .operand .sum => 3
  | .more .sum _ | .chain .sum => 4
  | .links | .comparison | .negation | .operand .and => 5
  | .more .and _ | .chain .and | .operand .or => 6
  | .more .or _ | .chain .or | .whole => 7

/-- The next token, if there is one, does not carry the phrase on. -/
def Stops (p : Phrase) (rest : List Lexeme) : Prop :=
  ∀ lexeme ∈ rest.head?, p.rank < lexeme.token.reach

/-- What stops a phrase stops every phrase that holds together more tightly. -/
theorem Stops.mono {p q : Phrase} {rest : List Lexeme} (h : Stops p rest) (hq : q.rank ≤ p.rank) :
    Stops q rest :=
  fun lexeme hlexeme => Nat.lt_of_le_of_lt hq (h lexeme hlexeme)

theorem stops_cons {p : Phrase} {lexeme : Lexeme} {rest : List Lexeme} :
    Stops p (lexeme :: rest) ↔ p.rank < lexeme.token.reach := by
  simp [Stops]

@[simp] theorem Phrase.rank_more (level : Chain) (left : Term) :
    (Phrase.more level left).rank = (Phrase.chain level).rank := by
  cases level <;> rfl

/-- A token that stops a chain is no operator of its level. -/
theorem Chain.build?_eq_none {level : Chain} {t : Token}
    (h : (Phrase.chain level).rank < t.reach) : level.build? t = none := by
  cases level <;> cases t <;> first | rfl | exact absurd h (by decide)

/-- An operator of a level stops the operand before it. -/
theorem Chain.rank_operand_lt {level : Chain} {t : Token} {build : Term → Term → Term}
    (h : level.build? t = some build) : (Phrase.operand level).rank < t.reach := by
  cases level <;> cases t <;> first | decide | cases h

/-- Where comparisons stop, no comparison operator can be read. -/
theorem compareOp?_eq_none {rest : List Lexeme} (h : Stops .links rest) : compareOp? rest = none := by
  match rest with
  | [] => rfl
  | ⟨_, _, token⟩ :: _ =>
    have hreach : 5 < token.reach := stops_cons.1 h
    cases token <;> first | rfl | exact absurd hreach (by decide)

/-- What goes on with operators of a level stops its operands. -/
theorem stops_operand {level : Chain} {left e : Term} {us : List Token} {n : Nat}
    {ls rest : List Lexeme} (hmore : Derives (.more level left) us e n) (hls : tokensOf ls = us)
    (hrest : Stops (.chain level) rest) : Stops (.operand level) (ls ++ rest) := by
  cases hmore with
  | noMore =>
    obtain rfl := List.map_eq_nil_iff.1 hls
    exact hrest.mono (by cases level <;> decide)
  | more hop =>
    obtain ⟨lexeme, ls, rfl, rfl, -⟩ := List.map_eq_cons_iff.1 hls
    exact stops_cons.2 (Chain.rank_operand_lt hop)

/-- Comparison operators stop sums. -/
theorem stops_sum {us : List Token} {links : List (CompareOp × Term)} {n : Nat}
    {ls rest : List Lexeme} (hlinks : Derives .links us links n) (hls : tokensOf ls = us)
    (hrest : Stops .comparison rest) : Stops (.chain .sum) (ls ++ rest) := by
  cases hlinks with
  | noLinks =>
    obtain rfl := List.map_eq_nil_iff.1 hls
    exact hrest.mono (by decide)
  | @link op =>
    cases op
    all_goals
      obtain ⟨lexeme, ls, rfl, hlexeme, -⟩ := List.map_eq_cons_iff.1 hls
      exact stops_cons.2 (hlexeme ▸ by decide)

/-- Indices and methods stop primaries. -/
theorem stops_primary {target e : Term} {us : List Token} {n : Nat} {ls rest : List Lexeme}
    (hsuffixes : Derives (.suffixes target) us e n) (hls : tokensOf ls = us)
    (hrest : Stops .signed rest) : Stops .primary (ls ++ rest) := by
  cases hsuffixes with
  | noSuffixes =>
    obtain rfl := List.map_eq_nil_iff.1 hls
    exact hrest.mono (by decide)
  | index | method =>
    obtain ⟨lexeme, ls, rfl, hlexeme, -⟩ := List.map_eq_cons_iff.1 hls
    exact stops_cons.2 (hlexeme ▸ by decide)

/-- After arguments, nothing carries them on. -/
theorem stops_args {rest : List Lexeme} : Stops .args rest ∧ Stops .argsFrom rest := by
  have hpos (t : Token) : 0 < t.reach := by cases t <;> exact Nat.succ_pos _
  exact ⟨fun lexeme _ => hpos lexeme.token, fun lexeme _ => hpos lexeme.token⟩

/-! ## Readings that only the depth can stop -/

/-- A reading of what fits ends with its result, and one of what does not ends too deep. -/
def Ends {α : Type} (x : Except Error α) (a : α) (fits : Prop) : Prop :=
  (fits ∧ x = .ok a) ∨ (¬ fits ∧ TooDeep x)

namespace Ends

variable {α β : Type} {x : Except Error α} {a : α} {P Q R : Prop}

theorem ok (hP : P) : Ends (.ok a) a P := .inl ⟨hP, rfl⟩

theorem congr (h : Ends x a P) (hPQ : P ↔ Q) : Ends x a Q := by
  rwa [← propext hPQ]

/-- Two readers in a row end as the second does if the depth lets both of them pass. -/
theorem bind {f : α → Except Error β} {b : β} (hx : Ends x a P) (hf : P → Ends (f a) b Q)
    (hR : R ↔ P ∧ Q) : Ends (x >>= f) b R := by
  rcases hx with ⟨hP, rfl⟩ | ⟨hP, offset, rfl⟩
  · exact (hf hP).congr (by rw [hR, and_iff_right hP])
  · exact .inr ⟨fun h => hP (hR.1 h).1, offset, rfl⟩

theorem map {f : α → β} (hx : Ends x a P) : Ends (x >>= fun r => .ok (f r)) (f a) P :=
  hx.bind (fun _ => ok trivial) (and_true P).symm.to_iff

end Ends

variable {stop : Nat}

/-- Going one level down succeeds just if there is a level left. -/
theorem ends_descend (ts : List Lexeme) (depth : Nat) :
    Ends (descend stop ts depth) (depth + 1) (depth < maxDepth) := by
  unfold descend
  split
  · next h => exact .inl ⟨h, rfl⟩
  · next h => exact .inr ⟨h, _, rfl⟩

/-! ## What is derived is read -/

/-- Wherever the tokens write the phrase and it ends there, it is read in full, if the depth allows
    for its levels. -/
def CompleteAt (stop : Nat) (p : Phrase) (ts : List Token) (y : p.Yield) (n : Nat) : Prop :=
  ∀ ls rest depth, tokensOf ls = ts → Stops p rest → depth ≤ maxDepth →
    Ends (p.read stop ⟨ls ++ rest, depth⟩) (y, ⟨rest, depth⟩) (depth + n ≤ maxDepth)

variable {ts us : List Token} {e : Term} {m n : Nat}

theorem complete_whole (h : CompleteAt stop (.chain .or) ts e n) :
    CompleteAt stop .whole ts e (n + 1) := by
  intro ls rest depth hls hrest hdepth
  rw [read_whole]
  refine (ends_descend _ depth).bind (Q := depth + 1 + n ≤ maxDepth) (fun hlt => ?_) (by omega)
  exact (h ls rest (depth + 1) hls hrest hlt).map
    (f := fun r : Term × Cursor => (r.1, r.2.ascend 1))

/-- A chain is read like its first operand and what carries it on, which starts where the operand
    stops. -/
theorem complete_chain {level : Chain} {first : Term}
    (hmore : Derives (.more level first) us e n)
    (ihfirst : CompleteAt stop (.operand level) ts first m)
    (ihmore : CompleteAt stop (.more level first) us e n) :
    CompleteAt stop (.chain level) (ts ++ us) e (max m n) := by
  intro ls rest depth hls hrest hdepth
  obtain ⟨ls, ls', rfl, hls, hls'⟩ := List.map_eq_append_iff.1 hls
  rw [read_chain, List.append_assoc]
  have hoperand := ihfirst ls (ls' ++ rest) depth hls (stops_operand hmore hls' hrest) hdepth
  refine hoperand.bind (Q := depth + n ≤ maxDepth) (fun _ => ?_) (by omega)
  exact ihmore ls' rest depth hls' (hrest.mono (by simp)) hdepth

theorem complete_noMore {level : Chain} {left : Term} :
    CompleteAt stop (.more level left) [] left 0 := by
  intro ls rest depth hls hrest hdepth
  obtain rfl := List.map_eq_nil_iff.1 hls
  have hnone (lexeme : Lexeme) (hhead : lexeme ∈ rest.head?) :
      level.build? lexeme.token = none :=
    Chain.build?_eq_none (by simpa using hrest lexeme hhead)
  rw [List.nil_append, read_more_none stop hnone]
  exact .ok hdepth

/-- An operator of the level, its right operand and what carries on after them are read one after
    the other. -/
theorem complete_more {level : Chain} {left right : Term} {op : Token}
    {build : Term → Term → Term} (hop : level.build? op = some build)
    (hmore : Derives (.more level (build left right)) us e n)
    (ihright : CompleteAt stop (.operand level) ts right m)
    (ihmore : CompleteAt stop (.more level (build left right)) us e n) :
    CompleteAt stop (.more level left) (op :: (ts ++ us)) e (max m n + 1) := by
  intro ls rest depth hls hrest hdepth
  obtain ⟨lexeme, ls, rfl, rfl, htail⟩ := List.map_eq_cons_iff.1 hls
  obtain ⟨ls, ls', rfl, hls, hls'⟩ := List.map_eq_append_iff.1 htail
  rw [List.cons_append, read_more_some stop hop, List.append_assoc]
  have hrest' : Stops (.chain level) rest := hrest.mono (by simp)
  refine (ends_descend _ depth).bind (Q := depth + 1 + max m n ≤ maxDepth) (fun hlt => ?_)
    (by omega)
  have hoperand :=
    ihright ls (ls' ++ rest) (depth + 1) hls (stops_operand hmore hls' hrest') hlt
  refine hoperand.bind (Q := depth + 1 + n ≤ maxDepth) (fun _ => ?_) (by omega)
  exact (ihmore ls' rest (depth + 1) hls' (hrest.mono (by simp)) hlt).map
    (f := fun r : Term × Cursor => (r.1, r.2.ascend 1))

/-- The operand of a level is the phrase of the next level. -/
theorem complete_operand (level : Chain)
    (h : match level with
      | .or => CompleteAt stop (.chain .and) ts e n
      | .and => CompleteAt stop .negation ts e n
      | .sum => CompleteAt stop (.chain .product) ts e n
      | .product => CompleteAt stop .signed ts e n) :
    CompleteAt stop (.operand level) ts e n := by
  intro ls rest depth hls hrest hdepth
  rw [read_operand]
  cases level <;> exact h ls rest depth hls hrest hdepth

/-- A negation costs one level more than what it negates. -/
theorem complete_not (h : CompleteAt stop .negation ts e n) :
    CompleteAt stop .negation (.not :: ts) (.not e) (n + 1) := by
  intro ls rest depth hls hrest hdepth
  obtain ⟨lexeme, ls, rfl, hnot, hls⟩ := List.map_eq_cons_iff.1 hls
  rw [List.cons_append, read_negation_not stop lexeme hnot]
  refine (ends_descend _ depth).bind (Q := depth + 1 + n ≤ maxDepth) (fun hlt => ?_) (by omega)
  exact (h ls rest (depth + 1) hls hrest hlt).map
    (f := fun r : Term × Cursor => (Term.not r.1, r.2.ascend 1))

theorem complete_comparison (hderives : Derives .comparison ts e n)
    (h : CompleteAt stop .comparison ts e n) : CompleteAt stop .negation ts e n := by
  intro ls rest depth hls hrest hdepth
  obtain ⟨t, ts, rfl, ht⟩ := hderives.begins (by decide)
  obtain ⟨lexeme, ls, rfl, rfl, rfl⟩ := List.map_eq_cons_iff.1 hls
  have hnot : lexeme.token ≠ .not := fun hnot => by
    rw [hnot] at ht
    exact absurd ht (by decide)
  rw [read_negation stop _ (by simpa using hnot)]
  exact h (lexeme :: ls) rest depth rfl hrest hdepth

theorem complete_sum (h : CompleteAt stop (.chain .sum) ts e n) :
    CompleteAt stop .comparison ts e n := by
  intro ls rest depth hls hrest hdepth
  rw [read_comparison]
  refine (h ls rest depth hls (hrest.mono (by decide)) hdepth).bind (Q := True) (fun _ => ?_)
    (and_true _).symm.to_iff
  rw [read_links_none stop (c := ⟨rest, depth⟩) (compareOp?_eq_none hrest)]
  exact .ok trivial

/-- A sum with comparisons behind it is one comparison. -/
theorem complete_compare {first : Term} {link : CompareOp × Term}
    {links : List (CompareOp × Term)} (hlinks : Derives .links us (link :: links) n)
    (ihfirst : CompleteAt stop (.chain .sum) ts first m)
    (ihlinks : CompleteAt stop .links us (link :: links) n) :
    CompleteAt stop .comparison (ts ++ us) (.compare first (link :: links)) (max m n) := by
  intro ls rest depth hls hrest hdepth
  obtain ⟨ls, ls', rfl, hls, hls'⟩ := List.map_eq_append_iff.1 hls
  rw [read_comparison, List.append_assoc]
  have hsum := ihfirst ls (ls' ++ rest) depth hls (stops_sum hlinks hls' hrest) hdepth
  refine hsum.bind (Q := depth + n ≤ maxDepth) (fun _ => ?_) (by omega)
  exact (ihlinks ls' rest depth hls' hrest hdepth).map
    (f := fun s : List (CompareOp × Term) × Cursor =>
      (if s.1.isEmpty then first else Term.compare first s.1, s.2))

theorem complete_noLinks : CompleteAt stop .links [] [] 0 := by
  intro ls rest depth hls hrest hdepth
  obtain rfl := List.map_eq_nil_iff.1 hls
  rw [List.nil_append, read_links_none stop (compareOp?_eq_none hrest)]
  exact .ok hdepth

/-- One comparison operator, its right side, and the comparisons after it. -/
theorem complete_link {op : CompareOp} {links : List (CompareOp × Term)}
    (hlinks : Derives .links us links n) (ihright : CompleteAt stop (.chain .sum) ts e m)
    (ihlinks : CompleteAt stop .links us links n) :
    CompleteAt stop .links (op.tokens ++ (ts ++ us)) ((op, e) :: links) (max m n) := by
  intro ls rest depth hls hrest hdepth
  obtain ⟨lsop, ls, rfl, hop, hls⟩ := List.map_eq_append_iff.1 hls
  obtain ⟨ls, ls', rfl, hls, hls'⟩ := List.map_eq_append_iff.1 hls
  obtain ⟨_, hread⟩ := compareOp?_append hop (ls ++ (ls' ++ rest))
  rw [List.append_assoc, List.append_assoc, read_links_some stop (c := ⟨_, depth⟩) hread]
  have hsum := ihright ls (ls' ++ rest) depth hls (stops_sum hlinks hls' hrest) hdepth
  refine hsum.bind (Q := depth + n ≤ maxDepth) (fun _ => ?_) (by omega)
  exact (ihlinks ls' rest depth hls' hrest hdepth).map
    (f := fun s : List (CompareOp × Term) × Cursor => ((op, e) :: s.1, s.2))

/-- A minus sign costs one level more than what it stands before. -/
theorem complete_minus (h : CompleteAt stop .signed ts e n) :
    CompleteAt stop .signed (.minus :: ts) (.neg e) (n + 1) := by
  intro ls rest depth hls hrest hdepth
  obtain ⟨lexeme, ls, rfl, hminus, hls⟩ := List.map_eq_cons_iff.1 hls
  rw [List.cons_append, read_signed_minus stop lexeme hminus]
  refine (ends_descend _ depth).bind (Q := depth + 1 + n ≤ maxDepth) (fun hlt => ?_) (by omega)
  exact (h ls rest (depth + 1) hls hrest hlt).map
    (f := fun r : Term × Cursor => (Term.neg r.1, r.2.ascend 1))

/-- A plus sign costs a level too, though it leaves no node behind. -/
theorem complete_plus (h : CompleteAt stop .signed ts e n) :
    CompleteAt stop .signed (.plus :: ts) e (n + 1) := by
  intro ls rest depth hls hrest hdepth
  obtain ⟨lexeme, ls, rfl, hplus, hls⟩ := List.map_eq_cons_iff.1 hls
  rw [List.cons_append, read_signed_plus stop lexeme hplus]
  refine (ends_descend _ depth).bind (Q := depth + 1 + n ≤ maxDepth) (fun hlt => ?_) (by omega)
  exact (h ls rest (depth + 1) hls hrest hlt).map
    (f := fun r : Term × Cursor => (r.1, r.2.ascend 1))

/-- A primary and the suffixes behind it. -/
theorem complete_unsigned {target : Term} (hprimary : Derives .primary ts target m)
    (hsuffixes : Derives (.suffixes target) us e n)
    (ihprimary : CompleteAt stop .primary ts target m)
    (ihsuffixes : CompleteAt stop (.suffixes target) us e n) :
    CompleteAt stop .signed (ts ++ us) e (max m n) := by
  intro ls rest depth hls hrest hdepth
  obtain ⟨ls, ls', rfl, hls, hls'⟩ := List.map_eq_append_iff.1 hls
  have hbegins : ∀ lexeme ∈ (ls ++ ls' ++ rest).head?, lexeme.token ≠ .minus ∧
      lexeme.token ≠ .plus := by
    obtain ⟨t, ts, rfl, ht⟩ := hprimary.begins (by decide)
    obtain ⟨lexeme, ls, rfl, rfl, -⟩ := List.map_eq_cons_iff.1 hls
    rintro _ ⟨rfl⟩
    refine ⟨fun hminus => ?_, fun hplus => ?_⟩
    · rw [hminus] at ht
      exact absurd ht (by decide)
    · rw [hplus] at ht
      exact absurd ht (by decide)
  rw [read_signed stop _ hbegins, List.append_assoc]
  have hread := ihprimary ls (ls' ++ rest) depth hls (stops_primary hsuffixes hls' hrest) hdepth
  refine hread.bind (Q := depth + n ≤ maxDepth) (fun _ => ?_) (by omega)
  exact ihsuffixes ls' rest depth hls' hrest hdepth

theorem complete_noSuffixes {target : Term} : CompleteAt stop (.suffixes target) [] target 0 := by
  intro ls rest depth hls hrest hdepth
  obtain rfl := List.map_eq_nil_iff.1 hls
  have hnone (lexeme : Lexeme) (hhead : lexeme ∈ rest.head?) :
      lexeme.token ≠ .leftBracket ∧ lexeme.token ≠ .dot := by
    have hreach := hrest lexeme hhead
    refine ⟨fun hbracket => ?_, fun hdot => ?_⟩
    · rw [hbracket] at hreach
      exact absurd hreach (Nat.lt_irrefl _)
    · rw [hdot] at hreach
      exact absurd hreach (Nat.lt_irrefl _)
  rw [List.nil_append, read_suffixes_none stop hnone]
  exact .ok hdepth

/-- An index, and the suffixes behind its bracket. -/
theorem complete_index {target i : Term} (ihindex : CompleteAt stop .whole ts i m)
    (ihsuffixes : CompleteAt stop (.suffixes (.index target i)) us e n) :
    CompleteAt stop (.suffixes target) (.leftBracket :: (ts ++ .rightBracket :: us)) e
      (max m n + 1) := by
  intro ls rest depth htokens hrest hdepth
  obtain ⟨lexeme, ls, rfl, hbracket, htail⟩ := List.map_eq_cons_iff.1 htokens
  obtain ⟨ls, ls', rfl, hls, htail'⟩ := List.map_eq_append_iff.1 htail
  obtain ⟨closing, ls', rfl, hclosing, hls'⟩ := List.map_eq_cons_iff.1 htail'
  rw [List.cons_append, read_suffixes_index stop hbracket, List.append_assoc]
  refine (ends_descend _ depth).bind (Q := depth + 1 + max m n ≤ maxDepth) (fun hlt => ?_)
    (by omega)
  have hwhole := ihindex ls (closing :: ls' ++ rest) (depth + 1) hls
    (stops_cons.2 (hclosing ▸ by decide)) hlt
  refine hwhole.bind (Q := depth + 1 + n ≤ maxDepth) (fun _ => ?_) (by omega)
  simp only [List.cons_append, (afterBracket_eq_ok_iff stop).2 ⟨closing, rfl, hclosing⟩]
  exact (ihsuffixes ls' rest (depth + 1) hls' hrest hlt).map
    (f := fun s : Term × Cursor => (s.1, s.2.ascend 1))

/-- A method with its arguments, and the suffixes behind its parenthesis. -/
theorem complete_method {target : Term} {name : String} {args : List Term}
    (ihargs : CompleteAt stop .args ts args m)
    (ihsuffixes : CompleteAt stop (.suffixes (.method target name args)) us e n) :
    CompleteAt stop (.suffixes target) (.dot :: .ident name :: .leftParen :: (ts ++ us)) e
      (max m n + 1) := by
  intro ls rest depth htokens hrest hdepth
  obtain ⟨lexeme, ls, rfl, hdot, htail⟩ := List.map_eq_cons_iff.1 htokens
  obtain ⟨ident, ls, rfl, hident, htail⟩ := List.map_eq_cons_iff.1 htail
  obtain ⟨paren, ls, rfl, hparen, htail⟩ := List.map_eq_cons_iff.1 htail
  obtain ⟨ls, ls', rfl, hls, hls'⟩ := List.map_eq_append_iff.1 htail
  rw [List.cons_append, read_suffixes_method stop hdot]
  refine (ends_descend _ depth).bind (Q := depth + 1 + max m n ≤ maxDepth) (fun hlt => ?_)
    (by omega)
  rw [List.cons_append, List.cons_append,
    (methodHead_eq_ok_iff stop).2 ⟨ident, paren, rfl, hident, hparen⟩, List.append_assoc]
  have hargs := ihargs ls (ls' ++ rest) (depth + 1) hls stops_args.1 hlt
  refine hargs.bind (Q := depth + 1 + n ≤ maxDepth) (fun _ => ?_) (by omega)
  exact (ihsuffixes ls' rest (depth + 1) hls' hrest hlt).map
    (f := fun s : Term × Cursor => (s.1, s.2.ascend 1))

theorem complete_noArgs : CompleteAt stop .args [.rightParen] [] 0 := by
  intro ls rest depth hls hrest hdepth
  obtain ⟨paren, ls, rfl, hparen, htail⟩ := List.map_eq_cons_iff.1 hls
  obtain rfl := List.map_eq_nil_iff.1 htail
  rw [List.singleton_append, read_args_none stop hparen]
  exact .ok hdepth

/-- Arguments that are not empty are read from the first one on. -/
theorem complete_args {es : List Term} (hderives : Derives .argsFrom ts es n)
    (h : CompleteAt stop .argsFrom ts es n) : CompleteAt stop .args ts es n := by
  intro ls rest depth hls hrest hdepth
  obtain ⟨t, ts, rfl, ht⟩ := hderives.begins (by decide)
  obtain ⟨lexeme, ls, rfl, rfl, rfl⟩ := List.map_eq_cons_iff.1 hls
  have hparen : lexeme.token ≠ .rightParen := fun hparen => by
    rw [hparen] at ht
    exact absurd ht (by decide)
  rw [read_args stop _ (by simpa using hparen)]
  exact h (lexeme :: ls) rest depth rfl hrest hdepth

theorem complete_lastArg (h : CompleteAt stop .whole ts e n) :
    CompleteAt stop .argsFrom (ts ++ [.rightParen]) [e] n := by
  intro ls rest depth htokens hrest hdepth
  obtain ⟨ls, ls', rfl, hls, htail⟩ := List.map_eq_append_iff.1 htokens
  obtain ⟨⟨offset, text, token⟩, ls', rfl, hparen, htail⟩ := List.map_eq_cons_iff.1 htail
  obtain rfl := List.map_eq_nil_iff.1 htail
  obtain rfl : token = .rightParen := hparen
  rw [read_argsFrom, List.append_assoc]
  have hwhole := h ls (⟨offset, text, .rightParen⟩ :: rest) depth hls
    (stops_cons.2 (show 7 < 8 by decide)) hdepth
  exact hwhole.bind (Q := True) (fun _ => .ok trivial) (and_true _).symm.to_iff

/-- An argument, a comma, and the arguments after it. -/
theorem complete_arg {es : List Term} (ih : CompleteAt stop .whole ts e m)
    (ihargs : CompleteAt stop .argsFrom us es n) :
    CompleteAt stop .argsFrom (ts ++ .comma :: us) (e :: es) (max m n) := by
  intro ls rest depth htokens hrest hdepth
  obtain ⟨ls, ls', rfl, hls, htail⟩ := List.map_eq_append_iff.1 htokens
  obtain ⟨⟨offset, text, token⟩, ls', rfl, hcomma, hls'⟩ := List.map_eq_cons_iff.1 htail
  obtain rfl : token = .comma := hcomma
  rw [read_argsFrom, List.append_assoc]
  have hwhole := ih ls (⟨offset, text, .comma⟩ :: ls' ++ rest) depth hls
    (stops_cons.2 (show 7 < 8 by decide)) hdepth
  refine hwhole.bind (Q := depth + n ≤ maxDepth) (fun _ => ?_) (by omega)
  exact (ihargs ls' rest depth hls' stops_args.2 hdepth).map
    (f := fun s : List Term × Cursor => (e :: s.1, s.2))

/-- A literal is read whatever the depth is. -/
theorem complete_literal {token : Token} {value : Value} (h : token.literal? = some value) :
    CompleteAt stop .primary [token] (.literal value) 0 := by
  intro ls rest depth hls hrest hdepth
  obtain ⟨lexeme, ls, rfl, rfl, htail⟩ := List.map_eq_cons_iff.1 hls
  obtain rfl := List.map_eq_nil_iff.1 htail
  rw [List.singleton_append, read_primary_literal stop h]
  exact .ok hdepth

theorem complete_name {name : String} : CompleteAt stop .primary [.ident name] (.name name) 0 := by
  intro ls rest depth hls hrest hdepth
  obtain ⟨lexeme, ls, rfl, hname, htail⟩ := List.map_eq_cons_iff.1 hls
  obtain rfl := List.map_eq_nil_iff.1 htail
  have hcall (paren : Lexeme) (hhead : paren ∈ rest.head?) (hparen : paren.token = .leftParen) :
      name.startsWith "$" = true := by
    have hreach := hrest paren hhead
    rw [hparen] at hreach
    exact absurd hreach (Nat.lt_irrefl _)
  rw [List.singleton_append, read_primary_name stop hname hcall]
  exact .ok hdepth

/-- A name with arguments is a call, unless the name is that of a metavariable. -/
theorem complete_call {name : String} {args : List Term} (hdollar : name.startsWith "$" = false)
    (h : CompleteAt stop .args ts args n) :
    CompleteAt stop .primary (.ident name :: .leftParen :: ts) (.call name args) n := by
  intro ls rest depth hls hrest hdepth
  obtain ⟨lexeme, ls, rfl, hname, htail⟩ := List.map_eq_cons_iff.1 hls
  obtain ⟨paren, ls, rfl, hparen, hls⟩ := List.map_eq_cons_iff.1 htail
  rw [List.cons_append, List.cons_append, read_primary_call stop hname hparen hdollar]
  exact (h ls rest depth hls stops_args.1 hdepth).map
    (f := fun r : List Term × Cursor => (Term.call name r.1, r.2))

/-- A term in parentheses costs as many levels as the term. -/
theorem complete_parens (h : CompleteAt stop .whole ts e n) :
    CompleteAt stop .primary (.leftParen :: (ts ++ [.rightParen])) e n := by
  intro ls rest depth htokens hrest hdepth
  obtain ⟨opening, ls, rfl, hopening, htail⟩ := List.map_eq_cons_iff.1 htokens
  obtain ⟨ls, ls', rfl, hls, htail⟩ := List.map_eq_append_iff.1 htail
  obtain ⟨⟨offset, text, token⟩, ls', rfl, hparen, htail⟩ := List.map_eq_cons_iff.1 htail
  obtain rfl := List.map_eq_nil_iff.1 htail
  obtain rfl : token = .rightParen := hparen
  rw [List.cons_append, read_primary_paren stop hopening, List.append_assoc]
  have hwhole := h ls (⟨offset, text, .rightParen⟩ :: rest) depth hls
    (stops_cons.2 (show 7 < 8 by decide)) hdepth
  exact hwhole.bind (Q := True) (fun _ => .ok trivial) (and_true _).symm.to_iff

/-- Whatever is derived is read, if the depth allows for its levels. -/
theorem completeAt (stop : Nat) {p : Phrase} {y : p.Yield} (h : Derives p ts y n) :
    CompleteAt stop p ts y n := by
  induction h with
  | whole _ ih => exact complete_whole ih
  | chain _ hmore ihfirst ihmore => exact complete_chain hmore ihfirst ihmore
  | noMore => exact complete_noMore
  | more hop _ hmore ihright ihmore => exact complete_more hop hmore ihright ihmore
  | conjunction _ ih => exact complete_operand .or ih
  | conjunct _ ih => exact complete_operand .and ih
  | summand _ ih => exact complete_operand .sum ih
  | factor _ ih => exact complete_operand .product ih
  | not _ ih => exact complete_not ih
  | comparison h ih => exact complete_comparison h ih
  | sum _ ih => exact complete_sum ih
  | compare _ hlinks ihfirst ihlinks => exact complete_compare hlinks ihfirst ihlinks
  | noLinks => exact complete_noLinks
  | link _ hlinks ihright ihlinks => exact complete_link hlinks ihright ihlinks
  | minus _ ih => exact complete_minus ih
  | plus _ ih => exact complete_plus ih
  | unsigned hprimary hsuffixes ihprimary ihsuffixes =>
    exact complete_unsigned hprimary hsuffixes ihprimary ihsuffixes
  | noSuffixes => exact complete_noSuffixes
  | index _ _ ihindex ihsuffixes => exact complete_index ihindex ihsuffixes
  | method _ _ ihargs ihsuffixes => exact complete_method ihargs ihsuffixes
  | noArgs => exact complete_noArgs
  | args h ih => exact complete_args h ih
  | lastArg _ ih => exact complete_lastArg ih
  | arg _ _ ih ihargs => exact complete_arg ih ihargs
  | literal h => exact complete_literal h
  | name => exact complete_name
  | call hdollar _ ih => exact complete_call hdollar ih
  | parens _ ih => exact complete_parens ih

/-! ## All tokens -/

/-- A whole text is read as one phrase, after which nothing may be left. -/
theorem parseTokens_eq (stop : Nat) (ls : List Lexeme) :
    parseTokens stop ls = Phrase.whole.read stop ⟨ls, 0⟩ >>= fun r =>
      match r.2.tokens with
      | [] => .ok r.1
      | lexeme :: _ => .error (.illFormed lexeme.offset (.trailing lexeme.token)) := by
  show (readTerm stop ls 0 >>= _) = plain (readTerm stop ls 0) >>= _
  cases readTerm stop ls 0 <;> rfl

/-- What is accepted is derived, with no more levels than there may be. -/
theorem derives_of_parseTokens {ls : List Lexeme} (h : parseTokens stop ls = .ok e) :
    ∃ n ≤ maxDepth, Derives .whole (tokensOf ls) e n := by
  rw [parseTokens_eq] at h
  obtain ⟨⟨e', c⟩, hread, h⟩ := Outcome.bind_eq_ok_iff.1 h
  obtain ⟨us, n, htokens, hderives, hfits, -⟩ := soundAt stop ls .whole 0 e' c hread (Nat.zero_le _)
  simp only at h
  split at h
  · next hend =>
    cases h
    have hus : tokensOf ls = us := by
      rw [hend] at htokens
      simpa [tokensOf] using htokens
    exact ⟨n, by simpa using hfits, hus ▸ hderives⟩
  · cases h

/-- What is derived is accepted, if it has no more levels than there may be, and is too deep
    otherwise. -/
theorem parseTokens_ends (stop : Nat) {ls : List Lexeme} (h : Derives .whole (tokensOf ls) e n) :
    Ends (parseTokens stop ls) e (n ≤ maxDepth) := by
  have hread := completeAt stop h ls [] 0 rfl (by simp [Stops]) (Nat.zero_le _)
  rw [List.append_nil, Nat.zero_add] at hread
  rw [parseTokens_eq]
  exact hread.bind (Q := True) (fun _ => .ok trivial) (and_true _).symm.to_iff

/-- Reading is the grammar: exactly the terms that the tokens derive with at most `maxDepth` levels
    are read from them, and for a term that takes more levels the one complaint is the depth. -/
theorem parseTokens_derives (stop : Nat) (ls : List Lexeme) (e : Term) :
    (parseTokens stop ls = .ok e ↔ ∃ n ≤ maxDepth, Derives .whole (tokensOf ls) e n) ∧
      ∀ n, Derives .whole (tokensOf ls) e n →
        (n ≤ maxDepth ∧ parseTokens stop ls = .ok e) ∨
          (maxDepth < n ∧ ∃ offset, parseTokens stop ls = .error (.illFormed offset .tooDeep)) := by
  have hends (n : Nat) (h : Derives .whole (tokensOf ls) e n) :
      Ends (parseTokens stop ls) e (n ≤ maxDepth) := parseTokens_ends stop h
  refine ⟨⟨derives_of_parseTokens, ?_⟩, fun n h => ?_⟩
  · rintro ⟨n, hn, h⟩
    rcases hends n h with ⟨-, hok⟩ | ⟨hdeep, -⟩
    · exact hok
    · exact absurd hn hdeep
  · rcases hends n h with hok | ⟨hdeep, herror⟩
    · exact .inl hok
    · exact .inr ⟨Nat.lt_of_not_le hdeep, herror⟩

/-! ## Terms within terms -/

/-- One operand is a chain. -/
theorem Derives.alone {level : Chain} (h : Derives (.operand level) ts e n) :
    Derives (.chain level) ts e n := by
  have hchain := Derives.chain h .noMore
  rwa [List.append_nil, Nat.max_zero] at hchain

/-- A comparison is an alternative. -/
theorem Derives.disjunct (h : Derives .comparison ts e n) : Derives (.operand .or) ts e n :=
  .conjunction (alone (.conjunct (.comparison h)))

/-- A comparison is a whole term. -/
theorem Derives.ofComparison (h : Derives .comparison ts e n) : Derives .whole ts e (n + 1) :=
  .whole (alone h.disjunct)

/-- A signed term is a sum. -/
theorem Derives.summed (h : Derives .signed ts e n) : Derives (.chain .sum) ts e n :=
  alone (.summand (alone (.factor h)))

/-- A signed term is a whole term. -/
theorem Derives.ofSigned (h : Derives .signed ts e n) : Derives .whole ts e (n + 1) :=
  ofComparison (.sum h.summed)

/-- A primary with nothing after it is a signed term. -/
theorem Derives.ofPrimary (h : Derives .primary ts e n) : Derives .signed ts e n := by
  have hsigned := Derives.unsigned h .noSuffixes
  rwa [List.append_nil, Nat.max_zero] at hsigned

/-- Two primaries are compared by any operator. -/
theorem Derives.compared (op : CompareOp) {f : Term} (hleft : Derives .primary ts e m)
    (hright : Derives .primary us f n) :
    Derives .comparison (ts ++ (op.tokens ++ us)) (.compare e [(op, f)]) (max m n) := by
  have hlink : Derives .links (op.tokens ++ (us ++ [])) [(op, f)] (max n 0) :=
    .link hright.ofPrimary.summed .noLinks
  rw [List.append_nil, Nat.max_zero] at hlink
  exact .compare hleft.ofPrimary.summed hlink

/-- One comparison or another takes two levels more than the second one. -/
theorem Derives.either {f : Term} (hleft : Derives .comparison ts e m)
    (hright : Derives .comparison us f n) :
    Derives .whole (ts ++ .or :: us) (.or e f) (max m (n + 1) + 1) := by
  have hmore : Derives (.more .or e) (.or :: (us ++ [])) (.or e f) (max n 0 + 1) :=
    .more rfl hright.disjunct .noMore
  rw [List.append_nil, Nat.max_zero] at hmore
  exact .whole (.chain hleft.disjunct hmore)

/-- A number with nothing after it is a signed term. -/
theorem Derives.one : Derives .signed [.int 1] (.literal (.int 1)) 0 :=
  .ofPrimary (.literal rfl)

/-- Each minus sign takes a level. -/
theorem Derives.signs (k : Nat) (h : Derives .signed ts e n) :
    Derives .signed (List.replicate k .minus ++ ts) (Nat.repeat .neg k e) (n + k) := by
  induction k with
  | zero => exact h
  | succ k ih => exact .minus ih

/-- The number one behind minus signs. -/
def negatedOne (k : Nat) : List Lexeme :=
  List.replicate k ⟨0, ['-'], .minus⟩ ++ [⟨0, ['1'], .int 1⟩]

/-- So many minus signs before a one are derived with one level for each and one for the whole. -/
theorem derives_negatedOne (k : Nat) :
    Derives .whole (tokensOf (negatedOne k)) (Nat.repeat .neg k (.literal (.int 1))) (k + 1) := by
  have hsigned := Derives.one.signs k
  rw [Nat.zero_add] at hsigned
  simpa [tokensOf, negatedOne] using hsigned.ofSigned

/-- With 255 signs the number is read, and with one sign more there are too many levels. -/
theorem parseTokens_derives_negatedOne :
    parseTokens 0 (negatedOne 255) = .ok (Nat.repeat .neg 255 (.literal (.int 1))) ∧
      ∃ offset, parseTokens 0 (negatedOne 256) = .error (.illFormed offset .tooDeep) := by
  refine ⟨(parseTokens_derives 0 _ _).1.2 ⟨256, Nat.le_refl _, derives_negatedOne 255⟩, ?_⟩
  rcases (parseTokens_derives 0 _ _).2 257 (derives_negatedOne 256) with ⟨hfits, -⟩ | ⟨-, h⟩
  · exact absurd hfits (by decide)
  · exact h

/-! ## Sources -/

/-- A source is read if the lexemes between the blanks at its ends write a term. -/
theorem parse_eq_ok_iff {source : String} {p : Predicate} :
    parse source = .ok p ↔ ∃ ls, lexemes (Text.trim source.toList) = .ok ls ∧
      parseTokens (byteLength (Text.trim source.toList)) ls = .ok p.term ∧ p.source = source := by
  obtain ⟨source', term⟩ := p
  simp only [parse, Outcome.bind_eq_ok_iff]
  constructor
  · rintro ⟨ls, hls, e, he, heq⟩
    cases heq
    exact ⟨ls, hls, he, rfl⟩
  · rintro ⟨ls, hls, he, rfl⟩
    exact ⟨ls, hls, term, he, rfl⟩

/-- A source is read if its lexemes derive a term with no more levels than there may be. -/
theorem parse_of_derives {source : String} {cs : List Char} {ls : List Lexeme}
    (htrim : Text.trim source.toList = cs) (hlexemes : lexemes cs = .ok ls)
    (hderives : Derives .whole (tokensOf ls) e n) (hn : n ≤ maxDepth) :
    parse source = .ok ⟨source, e⟩ := by
  subst htrim
  rcases parseTokens_ends (byteLength (Text.trim source.toList)) hderives with ⟨-, hok⟩ | ⟨hdeep, -⟩
  · exact parse_eq_ok_iff.2 ⟨ls, hlexemes, hok, rfl⟩
  · exact absurd hn hdeep

end RuleSieve.Predicate
