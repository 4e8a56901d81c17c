/-
  The grammar of predicates, and that the readers read it.

      or         := and (`or` and)*
      and        := not (`and` not)*
      not        := `not` not | comparison
      comparison := sum (op sum)*                 op one of == != < <= > >= in =~ or `not in`
      sum        := product ((`+` | `-`) product)*
      product    := signed ((`*` | `/` | `//` | `%`) signed)*
      signed     := (`-` | `+`) signed | primary (`[` or `]` | `.` name `(` args `)`)*
      primary    := value | name | name `(` args `)` | `(` or `)`
      args       := nothing | or (`,` or)*

  A name with a dollar sign is not called.  `Derives` is this grammar with the term that is made of a
  phrase: operators of a level are taken from the left, comparisons stay in one chain, and plus signs
  and parentheses leave nothing behind.  It also counts how many levels the readers go down, which is
  all that can stand in the way of a phrase that the grammar derives (`parseTokens_derives`).
-/
import RuleSieve.Proofs.Reading

namespace RuleSieve.Predicate

/-! ## The grammar -/

/-- The tokens of lexemes. -/
def tokensOf (ls : List Lexeme) : List Token := ls.map (·.token)

/-- The tokens of a comparison operator. -/
def CompareOp.tokens : CompareOp → List Token
  | .equal => [.equal]
  | .notEqual => [.notEqual]
  | .less => [.less]
  | .lessEqual => [.lessEqual]
  | .greater => [.greater]
  | .greaterEqual => [.greaterEqual]
  | .within => [.within]
  | .notWithin => [.not, .within]
  | .matching => [.tilde]

/-- The tokens write a phrase, of which something is made; reading them goes a number of levels
    down. -/
inductive Derives : (p : Phrase) → List Token → p.Yield → Nat → Prop
  | whole {ts e n} (h : Derives (.chain .or) ts e n) : Derives .whole ts e (n + 1)
  | chain {level ts us first e m n} (hfirst : Derives (.operand level) ts first m)
      (hmore : Derives (.more level first) us e n) : Derives (.chain level) (ts ++ us) e (max m n)
  | noMore {level left} : Derives (.more level left) [] left 0
  | more {level left op build ts us right e m n} (hop : level.build? op = some build)
      (hright : Derives (.operand level) ts right m)
      (hmore : Derives (.more level (build left right)) us e n) :
      Derives (.more level left) (op :: (ts ++ us)) e (max m n + 1)
  | conjunction {ts e n} (h : Derives (.chain .and) ts e n) : Derives (.operand .or) ts e n
  | conjunct {ts e n} (h : Derives .negation ts e n) : Derives (.operand .and) ts e n
  | summand {ts e n} (h : Derives (.chain .product) ts e n) : Derives (.operand .sum) ts e n
  | factor {ts e n} (h : Derives .signed ts e n) : Derives (.operand .product) ts e n
  | not {ts e n} (h : Derives .negation ts e n) : Derives .negation (.not :: ts) (.not e) (n + 1)
  | comparison {ts e n} (h : Derives .comparison ts e n) : Derives .negation ts e n
  | sum {ts e n} (h : Derives (.chain .sum) ts e n) : Derives .comparison ts e n
  | compare {ts us first link links m n} (hfirst : Derives (.chain .sum) ts first m)
      (hlinks : Derives .links us (link :: links) n) :
      Derives .comparison (ts ++ us) (.compare first (link :: links)) (max m n)
  | noLinks : Derives .links [] [] 0
  | link {op ts us e links m n} (hright : Derives (.chain .sum) ts e m)
      (hlinks : Derives .links us links n) :
      Derives .links (op.tokens ++ (ts ++ us)) ((op, e) :: links) (max m n)
  | minus {ts e n} (h : Derives .signed ts e n) : Derives .signed (.minus :: ts) (.neg e) (n + 1)
  | plus {ts e n} (h : Derives .signed ts e n) : Derives .signed (.plus :: ts) e (n + 1)
  | unsigned {ts us target e m n} (hprimary : Derives .primary ts target m)
      (hsuffixes : Derives (.suffixes target) us e n) : Derives .signed (ts ++ us) e (max m n)
  | noSuffixes {target} : Derives (.suffixes target) [] target 0
  | index {target ts us i e m n} (hindex : Derives .whole ts i m)
      (hsuffixes : Derives (.suffixes (.index target i)) us e n) :
      Derives (.suffixes target) (.leftBracket :: (ts ++ .rightBracket :: us)) e (max m n + 1)
  | method {target name ts us args e m n} (hargs : Derives .args ts args m)
      (hsuffixes : Derives (.suffixes (.method target name args)) us e n) :
      Derives (.suffixes target) (.dot :: .ident name :: .leftParen :: (ts ++ us)) e (max m n + 1)
  | noArgs : Derives .args [.rightParen] [] 0
  | args {ts es n} (h : Derives .argsFrom ts es n) : Derives .args ts es n
  | lastArg {ts e n} (h : Derives .whole ts e n) : Derives .argsFrom (ts ++ [.rightParen]) [e] n
  | arg {ts us e es m n} (harg : Derives .whole ts e m) (hargs : Derives .argsFrom us es n) :
      Derives .argsFrom (ts ++ .comma :: us) (e :: es) (max m n)
  | literal {token value} (h : token.literal? = some value) :
      Derives .primary [token] (.literal value) 0
  | name {name} : Derives .primary [.ident name] (.name name) 0
  | call {name ts args n} (hdollar : name.startsWith "$" = false) (h : Derives .args ts args n) :
      Derives .primary (.ident name :: .leftParen :: ts) (.call name args) n
  | parens {ts e n} (h : Derives .whole ts e n) :
      Derives .primary (.leftParen :: (ts ++ [.rightParen])) e n

/-! ## Levels -/

/-- The source is nested too deeply. -/
def TooDeep {α : Type} (x : Except Error α) : Prop := ∃ offset, x = .error (.illFormed offset .tooDeep)

variable {stop : Nat}

/-- Going down succeeds just below the limit. -/
theorem descend_eq_ok_iff {ts : List Lexeme} {depth d : Nat} :
    descend stop ts depth = .ok d ↔ depth < maxDepth ∧ d = depth + 1 := by
  unfold descend
  split
  · next h => simp [h, eq_comm]
  · next h => simp [h, problemAt]

/-! ## Comparison operators -/

/-- The operator that is read is the one that the tokens write. -/
theorem tokensOf_of_compareOp? {ts : List Lexeme} {op : CompareOp}
    {rest : { rest : List Lexeme // rest.length < ts.length }}
    (h : compareOp? ts = some (op, rest)) : tokensOf ts = op.tokens ++ tokensOf rest.1 := by
  unfold compareOp? at h
  split at h
  · cases h
    rfl
  · next lexeme more _ =>
    obtain ⟨op', hop, heq⟩ := Option.map_eq_some_iff.1 h
    cases heq
    obtain ⟨offset, text, token⟩ := lexeme
    cases token <;> cases hop <;> rfl
  · cases h

/-- The tokens of a comparison operator are read as the operator, whatever follows. -/
theorem compareOp?_append {ls : List Lexeme} {op : CompareOp} (h : tokensOf ls = op.tokens)
    (rest : List Lexeme) :
    ∃ hlt, compareOp? (ls ++ rest) = some (op, ⟨rest, hlt⟩) := by
  have hlength : ls.length = op.tokens.length := by rw [← h, tokensOf, List.length_map]
  have hlt : rest.length < (ls ++ rest).length := by
    have hpos : 0 < op.tokens.length := by cases op <;> decide
    rw [List.length_append]
    omega
  refine ⟨hlt, ?_⟩
  match ls, h with
  | [⟨_, _, token⟩], h =>
    cases op <;> cases h
    all_goals rfl
  | [⟨_, _, token⟩, ⟨_, _, token'⟩], h =>
    cases op <;> cases h
    rfl
  | [], h => cases op <;> cases h
  | _ :: _ :: _ :: _, h => cases op <;> simp [tokensOf, CompareOp.tokens] at h

/-! ## What is read is derived -/

/-- Between two places stands a phrase that the grammar derives, with no more levels than there are
    left, and the depth is the same at both. -/
def Spells (p : Phrase) (c : Cursor) (y : p.Yield) (c' : Cursor) : Prop :=
  ∃ us n, tokensOf c.tokens = us ++ tokensOf c'.tokens ∧ Derives p us y n ∧
    c.depth + n ≤ maxDepth ∧ c'.depth = c.depth

/-- Whatever is read of the phrase at the start of the tokens is derived. -/
def SoundAt (stop : Nat) (p : Phrase) (ts : List Lexeme) : Prop :=
  ∀ depth y c', p.read stop ⟨ts, depth⟩ = .ok (y, c') → depth ≤ maxDepth →
    Spells p ⟨ts, depth⟩ y c'

/-- Whatever is read of fewer tokens is derived. -/
def SoundBelow (stop : Nat) (ts : List Lexeme) : Prop :=
  ∀ us : List Lexeme, us.length < ts.length → ∀ p, SoundAt stop p us

variable {ts : List Lexeme}

/-- A whole term is a chain of disjunctions, one level down. -/
theorem sound_whole (h : SoundAt stop (.chain .or) ts) : SoundAt stop .whole ts := by
  intro depth y c' hread hdepth
  rw [read_whole] at hread
  obtain ⟨d, hd, hread⟩ := Outcome.bind_eq_ok_iff.1 hread
  obtain ⟨⟨e, c⟩, hchain, heq⟩ := Outcome.bind_eq_ok_iff.1 hread
  obtain ⟨hlt, rfl⟩ := descend_eq_ok_iff.1 hd
  cases heq
  obtain ⟨us, n, htokens, hderives, hfits, hback⟩ := h (depth + 1) e c hchain hlt
  refine ⟨us, n + 1, htokens, .whole hderives, by simp only at hfits ⊢; omega, ?_⟩
  simp only [Cursor.ascend] at hback ⊢
  omega

/-- A chain that is read is its first operand and what carries it on. -/
theorem sound_chain {level : Chain} (ih : SoundBelow stop ts)
    (h : SoundAt stop (.operand level) ts) : SoundAt stop (.chain level) ts := by
  intro depth y c' hread hdepth
  rw [read_chain] at hread
  obtain ⟨⟨first, c⟩, hfirst, hmore⟩ := Outcome.bind_eq_ok_iff.1 hread
  have hlt : c.tokens.length < ts.length := (length_of_read stop hfirst).2 rfl
  obtain ⟨us, m, htokens, hderives, hfits, hback⟩ := h depth first c hfirst hdepth
  obtain ⟨vs, n, htokens', hderives', hfits', hback'⟩ :=
    ih c.tokens hlt (.more level first) c.depth y c' hmore (by omega)
  refine ⟨us ++ vs, max m n, ?_, .chain hderives hderives', ?_, hback'.trans hback⟩
  · rw [htokens, htokens', List.append_assoc]
  · simp only at hfits hfits' hback ⊢
    omega

/-- What carries a chain on is an operator, its operand and more of it, or nothing. -/
theorem sound_more {level : Chain} {left : Term} (ih : SoundBelow stop ts) :
    SoundAt stop (.more level left) ts := by
  intro depth y c' hread hdepth
  rcases head_cases (level.build? ·.token ≠ none) ts with hnone | ⟨lexeme, rest, rfl, hsome⟩
  · rw [read_more_none stop fun lexeme hhead => not_not.1 (hnone lexeme hhead)] at hread
    cases hread
    exact ⟨[], 0, rfl, .noMore, hdepth, rfl⟩
  · obtain ⟨build, hbuild⟩ := Option.ne_none_iff_exists'.1 hsome
    rw [read_more_some stop hbuild] at hread
    obtain ⟨d, hd, hread⟩ := Outcome.bind_eq_ok_iff.1 hread
    obtain ⟨⟨right, c⟩, hright, hread⟩ := Outcome.bind_eq_ok_iff.1 hread
    obtain ⟨⟨e, c''⟩, hmore, heq⟩ := Outcome.bind_eq_ok_iff.1 hread
    obtain ⟨hdlt, rfl⟩ := descend_eq_ok_iff.1 hd
    cases heq
    have hlt : c.tokens.length < rest.length := (length_of_read stop hright).2 rfl
    obtain ⟨us, m, htokens, hderives, hfits, hback⟩ :=
      ih rest (by simp) (.operand level) (depth + 1) right c hright hdlt
    obtain ⟨vs, n, htokens', hderives', hfits', hback'⟩ :=
      ih c.tokens (by simp only [List.length_cons]; omega) (.more level (build left right)) c.depth e
        c'' hmore (by omega)
    refine ⟨lexeme.token :: (us ++ vs), max m n + 1, ?_, .more hbuild hderives hderives', ?_, ?_⟩
    · show lexeme.token :: tokensOf rest = lexeme.token :: (us ++ vs) ++ tokensOf c''.tokens
      have hrest : tokensOf rest = us ++ tokensOf c.tokens := htokens
      rw [hrest, htokens', List.cons_append, List.append_assoc]
    · simp only at hfits hfits' hback ⊢
      omega
    · simp only [Cursor.ascend] at hback hback' ⊢
      omega

theorem sound_operand {level : Chain}
    (h : SoundAt stop
      (match level with
        | .or => .chain .and
        | .and => .negation
        | .sum => .chain .product
        | .product => .signed) ts) : SoundAt stop (.operand level) ts := by
  intro depth y c' hread hdepth
  rw [read_operand] at hread
  cases level with
  | or =>
    obtain ⟨us, n, htokens, hderives, hfits⟩ := h depth y c' hread hdepth
    exact ⟨us, n, htokens, .conjunction hderives, hfits⟩
  | and =>
    obtain ⟨us, n, htokens, hderives, hfits⟩ := h depth y c' hread hdepth
    exact ⟨us, n, htokens, .conjunct hderives, hfits⟩
  | sum =>
    obtain ⟨us, n, htokens, hderives, hfits⟩ := h depth y c' hread hdepth
    exact ⟨us, n, htokens, .summand hderives, hfits⟩
  | product =>
    obtain ⟨us, n, htokens, hderives, hfits⟩ := h depth y c' hread hdepth
    exact ⟨us, n, htokens, .factor hderives, hfits⟩

/-- A negation is the word and what is negated, or a comparison. -/
theorem sound_negation (ih : SoundBelow stop ts) (h : SoundAt stop .comparison ts) :
    SoundAt stop .negation ts := by
  intro depth y c' hread hdepth
  rcases head_cases (·.token = .not) ts with hbare | ⟨lexeme, rest, rfl, hnot⟩
  · rw [read_negation stop _ hbare] at hread
    obtain ⟨us, n, htokens, hderives, hfits⟩ := h depth y c' hread hdepth
    exact ⟨us, n, htokens, .comparison hderives, hfits⟩
  · rw [read_negation_not stop _ hnot] at hread
    obtain ⟨d, hd, hread⟩ := Outcome.bind_eq_ok_iff.1 hread
    obtain ⟨⟨e, c⟩, hnegated, heq⟩ := Outcome.bind_eq_ok_iff.1 hread
    obtain ⟨hlt, rfl⟩ := descend_eq_ok_iff.1 hd
    cases heq
    obtain ⟨us, n, htokens, hderives, hfits, hback⟩ :=
      ih rest (by simp) .negation (depth + 1) e c hnegated hlt
    refine ⟨.not :: us, n + 1, ?_, .not hderives, by simp only at hfits ⊢; omega, ?_⟩
    · show lexeme.token :: tokensOf rest = .not :: us ++ tokensOf c.tokens
      rw [hnot, List.cons_append]
      exact congrArg _ htokens
    · simp only [Cursor.ascend] at hback ⊢
      omega

/-- A comparison is a sum, alone or with comparisons behind it. -/
theorem sound_comparison (ih : SoundBelow stop ts) (h : SoundAt stop (.chain .sum) ts) :
    SoundAt stop .comparison ts := by
  intro depth y c' hread hdepth
  rw [read_comparison] at hread
  obtain ⟨⟨first, c⟩, hfirst, hread⟩ := Outcome.bind_eq_ok_iff.1 hread
  obtain ⟨⟨links, d⟩, hlinks, heq⟩ := Outcome.bind_eq_ok_iff.1 hread
  have hlt : c.tokens.length < ts.length := (length_of_read stop hfirst).2 rfl
  obtain ⟨us, m, htokens, hderives, hfits, hback⟩ := h depth first c hfirst hdepth
  obtain ⟨vs, n, htokens', hderives', hfits', hback'⟩ :=
    ih c.tokens hlt .links c.depth links d hlinks (by omega)
  cases links with
  | nil =>
    cases heq
    cases hderives'
    exact ⟨us, m, htokens.trans (congrArg _ htokens'), .sum hderives, hfits, hback'.trans hback⟩
  | cons link links =>
    cases heq
    refine ⟨us ++ vs, max m n, ?_, .compare hderives hderives', ?_, hback'.trans hback⟩
    · rw [htokens, htokens', List.append_assoc]
    · simp only at hfits hfits' hback ⊢
      omega

/-- Comparisons are an operator, a sum and more of them, or nothing. -/
theorem sound_links (ih : SoundBelow stop ts) : SoundAt stop .links ts := by
  intro depth y c' hread hdepth
  cases hop : compareOp? ts with
  | none =>
    rw [read_links_none stop hop] at hread
    cases hread
    exact ⟨[], 0, rfl, .noLinks, hdepth, rfl⟩
  | some found =>
    obtain ⟨op, rest⟩ := found
    rw [read_links_some stop hop] at hread
    obtain ⟨⟨right, c⟩, hright, hread⟩ := Outcome.bind_eq_ok_iff.1 hread
    obtain ⟨⟨links, d⟩, hlinks, heq⟩ := Outcome.bind_eq_ok_iff.1 hread
    cases heq
    have hlt : c.tokens.length < rest.1.length := (length_of_read stop hright).2 rfl
    obtain ⟨us, m, htokens, hderives, hfits, hback⟩ :=
      ih rest.1 rest.2 (.chain .sum) depth right c hright hdepth
    obtain ⟨vs, n, htokens', hderives', hfits', hback'⟩ :=
      ih c.tokens (Nat.lt_trans hlt rest.2) .links c.depth links d hlinks (by omega)
    refine ⟨op.tokens ++ (us ++ vs), max m n, ?_, .link hderives hderives', ?_,
      hback'.trans hback⟩
    · have hrest : tokensOf rest.1 = us ++ tokensOf c.tokens := htokens
      rw [tokensOf_of_compareOp? hop, hrest, htokens', List.append_assoc, List.append_assoc]
    · simp only at hfits hfits' hback ⊢
      omega

/-- A signed term is a sign and a signed term, or a primary with suffixes. -/
theorem sound_signed (ih : SoundBelow stop ts) (h : SoundAt stop .primary ts) :
    SoundAt stop .signed ts := by
  intro depth y c' hread hdepth
  rcases head_cases₂ (·.token = .minus) (·.token = .plus) ts with hbare | ⟨lexeme, rest, rfl, hsign⟩
  · rw [read_signed stop _ hbare] at hread
    obtain ⟨⟨target, c⟩, hprimary, hsuffixes⟩ := Outcome.bind_eq_ok_iff.1 hread
    have hlt : c.tokens.length < ts.length := (length_of_read stop hprimary).2 rfl
    obtain ⟨us, m, htokens, hderives, hfits, hback⟩ := h depth target c hprimary hdepth
    obtain ⟨vs, n, htokens', hderives', hfits', hback'⟩ :=
      ih c.tokens hlt (.suffixes target) c.depth y c' hsuffixes (by omega)
    refine ⟨us ++ vs, max m n, ?_, .unsigned hderives hderives', ?_, hback'.trans hback⟩
    · rw [htokens, htokens', List.append_assoc]
    · simp only at hfits hfits' hback ⊢
      omega
  · -- with either sign the rest is read one level down
    have hrest (d : Nat) (e : Term) (c : Cursor) (hd : descend stop rest depth = .ok d)
        (hinner : Phrase.signed.read stop ⟨rest, d⟩ = .ok (e, c)) :
        ∃ us n, tokensOf rest = us ++ tokensOf c.tokens ∧ Derives .signed us e n ∧
          depth + (n + 1) ≤ maxDepth ∧ c.depth - 1 = depth := by
      obtain ⟨hlt, rfl⟩ := descend_eq_ok_iff.1 hd
      obtain ⟨us, n, htokens, hderives, hfits, hback⟩ :=
        ih rest (by simp) .signed (depth + 1) e c hinner hlt
      refine ⟨us, n, htokens, hderives, ?_, ?_⟩
      · simp only at hfits
        omega
      · simp only at hback
        omega
    rcases hsign with hsign | hsign
    · rw [read_signed_minus stop _ hsign] at hread
      obtain ⟨d, hd, hread⟩ := Outcome.bind_eq_ok_iff.1 hread
      obtain ⟨⟨e, c⟩, hinner, heq⟩ := Outcome.bind_eq_ok_iff.1 hread
      cases heq
      obtain ⟨us, n, htokens, hderives, hfits, hback⟩ := hrest d e c hd hinner
      refine ⟨.minus :: us, n + 1, ?_, .minus hderives, hfits, hback⟩
      show lexeme.token :: tokensOf rest = .minus :: us ++ tokensOf c.tokens
      rw [hsign, htokens, List.cons_append]
    · rw [read_signed_plus stop _ hsign] at hread
      obtain ⟨d, hd, hread⟩ := Outcome.bind_eq_ok_iff.1 hread
      obtain ⟨⟨e, c⟩, hinner, heq⟩ := Outcome.bind_eq_ok_iff.1 hread
      cases heq
      obtain ⟨us, n, htokens, hderives, hfits, hback⟩ := hrest d e c hd hinner
      refine ⟨.plus :: us, n + 1, ?_, .plus hderives, hfits, hback⟩
      show lexeme.token :: tokensOf rest = .plus :: us ++ tokensOf c.tokens
      rw [hsign, htokens, List.cons_append]

/-- Suffixes are an index or a method call and more of them, or nothing. -/
theorem sound_suffixes {target : Term} (ih : SoundBelow stop ts) :
    SoundAt stop (.suffixes target) ts := by
  intro depth y c' hread hdepth
  rcases head_cases₂ (·.token = .leftBracket) (·.token = .dot) ts with
    hbare | ⟨lexeme, rest, rfl, hsuffix⟩
  · rw [read_suffixes_none stop hbare] at hread
    cases hread
    exact ⟨[], 0, rfl, .noSuffixes, hdepth, rfl⟩
  · rcases hsuffix with hbracket | hdot
    · rw [read_suffixes_index stop hbracket] at hread
      obtain ⟨d, hd, hread⟩ := Outcome.bind_eq_ok_iff.1 hread
      obtain ⟨⟨i, c⟩, hindex, hread⟩ := Outcome.bind_eq_ok_iff.1 hread
      obtain ⟨more, hafter, hread⟩ := Outcome.bind_eq_ok_iff.1 hread
      obtain ⟨⟨e, c''⟩, hmore, heq⟩ := Outcome.bind_eq_ok_iff.1 hread
      obtain ⟨hdlt, rfl⟩ := descend_eq_ok_iff.1 hd
      obtain ⟨closing, hclosing, hclosed⟩ := (afterBracket_eq_ok_iff stop).1 hafter
      cases heq
      have hlt : c.tokens.length < rest.length := (length_of_read stop hindex).2 rfl
      have hmorelt : more.length < rest.length := by
        have hc : c.tokens.length = more.length + 1 := by rw [hclosing, List.length_cons]
        omega
      obtain ⟨us, m, htokens, hderives, hfits, hback⟩ :=
        ih rest (by simp) .whole (depth + 1) i c hindex hdlt
      obtain ⟨vs, n, htokens', hderives', hfits', hback'⟩ :=
        ih more (by simp only [List.length_cons]; omega) (.suffixes (.index target i)) c.depth e c'' hmore (by omega)
      refine ⟨.leftBracket :: (us ++ .rightBracket :: vs), max m n + 1, ?_,
        .index hderives hderives', ?_, ?_⟩
      · have hrest : tokensOf rest = us ++ closing.token :: tokensOf more :=
          htokens.trans (congrArg (fun ts => us ++ tokensOf ts) hclosing)
        have hvs : tokensOf more = vs ++ tokensOf c''.tokens := htokens'
        show lexeme.token :: tokensOf rest = _
        rw [hbracket, hrest, hclosed, hvs]
        simp only [Cursor.ascend, List.cons_append, List.append_assoc]
      · simp only at hfits hfits' hback ⊢
        omega
      · simp only [Cursor.ascend] at hback hback' ⊢
        omega
    · rw [read_suffixes_method stop hdot] at hread
      obtain ⟨d, hd, hread⟩ := Outcome.bind_eq_ok_iff.1 hread
      obtain ⟨⟨name, after⟩, hhead', hread⟩ := Outcome.bind_eq_ok_iff.1 hread
      obtain ⟨⟨args, c⟩, hargs, hread⟩ := Outcome.bind_eq_ok_iff.1 hread
      obtain ⟨⟨e, c''⟩, hmore, heq⟩ := Outcome.bind_eq_ok_iff.1 hread
      obtain ⟨hdlt, rfl⟩ := descend_eq_ok_iff.1 hd
      obtain ⟨ident, paren, rfl, hident, hparen⟩ := (methodHead_eq_ok_iff stop).1 hhead'
      cases heq
      have hlt : c.tokens.length < after.length := (length_of_read stop hargs).2 rfl
      obtain ⟨us, m, htokens, hderives, hfits, hback⟩ :=
        ih after (by simp only [List.length_cons]; omega) .args (depth + 1) args c hargs hdlt
      obtain ⟨vs, n, htokens', hderives', hfits', hback'⟩ :=
        ih c.tokens (by simp only [List.length_cons]; omega) (.suffixes (.method target name args)) c.depth e c'' hmore
          (by omega)
      refine ⟨.dot :: .ident name :: .leftParen :: (us ++ vs), max m n + 1, ?_,
        .method hderives hderives', ?_, ?_⟩
      · have hafter : tokensOf after = us ++ tokensOf c.tokens := htokens
        show lexeme.token :: ident.token :: paren.token :: tokensOf after = _
        rw [hdot, hident, hparen, hafter, htokens']
        simp only [Cursor.ascend, List.cons_append, List.append_assoc]
      · simp only at hfits hfits' hback ⊢
        omega
      · simp only [Cursor.ascend] at hback hback' ⊢
        omega

theorem sound_args (h : SoundAt stop .argsFrom ts) : SoundAt stop .args ts := by
  intro depth y c' hread hdepth
  rcases head_cases (·.token = .rightParen) ts with hsome | ⟨lexeme, rest, rfl, hparen⟩
  · rw [read_args stop _ hsome] at hread
    obtain ⟨us, n, htokens, hderives, hfits⟩ := h depth y c' hread hdepth
    exact ⟨us, n, htokens, .args hderives, hfits⟩
  · rw [read_args_none stop hparen] at hread
    cases hread
    refine ⟨[.rightParen], 0, ?_, .noArgs, hdepth, rfl⟩
    show lexeme.token :: tokensOf rest = .rightParen :: tokensOf rest
    rw [hparen]

/-- Arguments are a term and a parenthesis, or a term, a comma and more of them. -/
theorem sound_argsFrom (ih : SoundBelow stop ts) (h : SoundAt stop .whole ts) :
    SoundAt stop .argsFrom ts := by
  intro depth y c' hread hdepth
  rw [read_argsFrom] at hread
  obtain ⟨⟨e, c⟩, harg, hread⟩ := Outcome.bind_eq_ok_iff.1 hread
  have hlt : c.tokens.length < ts.length := (length_of_read stop harg).2 rfl
  obtain ⟨us, m, htokens, hderives, hfits, hback⟩ := h depth e c harg hdepth
  simp only at hread
  split at hread
  · next offset text rest hclosing =>
    cases hread
    refine ⟨us ++ [.rightParen], m, ?_, .lastArg hderives, hfits, hback⟩
    rw [htokens, hclosing, List.append_assoc]
    rfl
  · next offset text rest hcomma =>
    obtain ⟨⟨es, d⟩, hargs, heq⟩ := Outcome.bind_eq_ok_iff.1 hread
    cases heq
    have hrest : rest.length < ts.length := by
      rw [hcomma, List.length_cons] at hlt
      omega
    obtain ⟨vs, n, htokens', hderives', hfits', hback'⟩ :=
      ih rest hrest .argsFrom c.depth es d hargs (by omega)
    refine ⟨us ++ .comma :: vs, max m n, ?_, .arg hderives hderives', ?_, hback'.trans hback⟩
    · have hvs : tokensOf rest = vs ++ tokensOf d.tokens := htokens'
      have hc : tokensOf c.tokens = .comma :: tokensOf rest := by rw [hcomma]; rfl
      rw [htokens, hc, hvs, List.append_assoc, List.cons_append]
    · simp only at hfits hfits' hback ⊢
      omega
  · cases hread

/-- A primary is a literal, a name, a call, or a term in parentheses. -/
theorem sound_primary (ih : SoundBelow stop ts) : SoundAt stop .primary ts := by
  intro depth y c' hread hdepth
  rcases primary_cases ts with hbad | ⟨lexeme, rest, value, rfl, hvalue⟩ |
    ⟨lexeme, rest, name, rfl, hname, hcall⟩ |
    ⟨lexeme, paren, rest, name, rfl, hname, hparen, hdollar⟩ | ⟨lexeme, rest, rfl, hparen⟩
  · obtain ⟨problem, hproblem⟩ := read_primary_error stop (c := ⟨ts, depth⟩) hbad
    rw [hproblem] at hread
    cases hread
  · rw [read_primary_literal stop hvalue] at hread
    cases hread
    exact ⟨[lexeme.token], 0, rfl, .literal hvalue, hdepth, rfl⟩
  · rw [read_primary_name stop hname hcall] at hread
    cases hread
    refine ⟨[.ident name], 0, ?_, .name, hdepth, rfl⟩
    show lexeme.token :: tokensOf rest = .ident name :: tokensOf rest
    rw [hname]
  · rw [read_primary_call stop hname hparen hdollar] at hread
    obtain ⟨⟨args, c⟩, hargs, heq⟩ := Outcome.bind_eq_ok_iff.1 hread
    cases heq
    obtain ⟨us, n, htokens, hderives, hfits, hback⟩ :=
      ih rest (by simp only [List.length_cons]; omega) .args depth args c hargs hdepth
    refine ⟨.ident name :: .leftParen :: us, n, ?_, .call hdollar hderives, hfits, hback⟩
    have hrest : tokensOf rest = us ++ tokensOf c.tokens := htokens
    show lexeme.token :: paren.token :: tokensOf rest = _
    rw [hname, hparen, hrest]
    rfl
  · rw [read_primary_paren stop hparen] at hread
    obtain ⟨⟨e, c⟩, hwhole, hread⟩ := Outcome.bind_eq_ok_iff.1 hread
    obtain ⟨us, n, htokens, hderives, hfits, hback⟩ :=
      ih rest (by simp) .whole depth e c hwhole hdepth
    simp only at hread
    split at hread
    · next offset text more hclosing =>
      cases hread
      refine ⟨.leftParen :: (us ++ [.rightParen]), n, ?_, .parens hderives, hfits, hback⟩
      have hrest : tokensOf rest = us ++ tokensOf c.tokens := htokens
      show lexeme.token :: tokensOf rest = _
      rw [hparen, hrest, hclosing]
      simp [tokensOf]
    · cases hread

/-- Whatever is read is derived. -/
theorem soundAt (stop : Nat) (ts : List Lexeme) (p : Phrase) : SoundAt stop p ts := by
  induction hn : ts.length using Nat.strongRecOn generalizing ts p with
  | _ n ih =>
    have hbelow : SoundBelow stop ts := fun us hus p => ih us.length (hn ▸ hus) us p rfl
    have hprimary := sound_primary hbelow
    have hsigned := sound_signed hbelow hprimary
    have hfactor : SoundAt stop (.operand .product) ts := sound_operand hsigned
    have hproduct := sound_chain hbelow hfactor
    have hsummand : SoundAt stop (.operand .sum) ts := sound_operand hproduct
    have hsum := sound_chain hbelow hsummand
    have hcomparison := sound_comparison hbelow hsum
    have hnegation := sound_negation hbelow hcomparison
    have hconjunct : SoundAt stop (.operand .and) ts := sound_operand hnegation
    have hand := sound_chain hbelow hconjunct
    have hconjunction : SoundAt stop (.operand .or) ts := sound_operand hand
    have hor := sound_chain hbelow hconjunction
    have hwhole := sound_whole hor
    have hargsFrom := sound_argsFrom hbelow hwhole
    cases p with
    | whole => exact hwhole
    | chain level => cases level <;> assumption
    | operand level => cases level <;> assumption
    | more level left => exact sound_more hbelow
    | negation => exact hnegation
    | comparison => exact hcomparison
    | links => exact sound_links hbelow
    | signed => exact hsigned
    | primary => exact hprimary
    | suffixes target => exact sound_suffixes hbelow
    | args => exact sound_args hargsFrom
    | argsFrom => exact hargsFrom

end RuleSieve.Predicate
