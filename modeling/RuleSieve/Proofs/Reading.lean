/-
  The readers of predicates, phrase by phrase.

  Each reader gives back a place together with the proof that it lies further on.  Here the proof is
  put aside: `Phrase.read` takes a cursor to a cursor, and for each kind of phrase one equation says
  what its reader does.  An operator of a chain then reads like a bracket: one level down, the rest of
  the chain, and one level up again.
-/
import RuleSieve.Predicate.Evaluation
import RuleSieve.Proofs.Outcome

namespace RuleSieve.Predicate

/-! ## Phrases -/

/-- The kinds of phrase that a predicate is made of. -/
inductive Phrase where
  /-- A whole term, one level down. -/
  | whole
  /-- Operands of a level with the operators between them. -/
  | chain (level : Chain)
  /-- One operand of a level. -/
  | operand (level : Chain)
  /-- Operators and operands of a level after what was read of it, which is `left`. -/
  | more (level : Chain) (left : Term)
  | negation
  | comparison
  /-- Comparison operators with their right operands. -/
  | links
  | signed
  | primary
  /-- The indices and methods after a term. -/
  | suffixes (target : Term)
  /-- Arguments after an opening parenthesis, with the closing one. -/
  | args
  /-- The same, with at least one argument. -/
  | argsFrom

/-- What is made of a phrase. -/
abbrev Phrase.Yield : Phrase → Type
  | .links => List (CompareOp × Term)
  | .args | .argsFrom => List Term
  | _ => Term

/-! ## The first token -/

/-- There is a first token that has the property, or there is none. -/
theorem head_cases (P : Lexeme → Prop) (ts : List Lexeme) :
    (∀ lexeme ∈ ts.head?, ¬ P lexeme) ∨ ∃ lexeme rest, ts = lexeme :: rest ∧ P lexeme := by
  cases ts with
  | nil => exact .inl fun _ hhead => nomatch hhead
  | cons lexeme rest =>
    by_cases hfirst : P lexeme
    · exact .inr ⟨lexeme, rest, rfl, hfirst⟩
    · exact .inl fun _ hhead => Option.some.inj hhead ▸ hfirst

/-- There is a first token that has one of two properties, or there is none. -/
theorem head_cases₂ (P Q : Lexeme → Prop) (ts : List Lexeme) :
    (∀ lexeme ∈ ts.head?, ¬ P lexeme ∧ ¬ Q lexeme) ∨
      ∃ lexeme rest, ts = lexeme :: rest ∧ (P lexeme ∨ Q lexeme) :=
  (head_cases (fun lexeme => P lexeme ∨ Q lexeme) ts).imp_left
    fun hneither lexeme hhead => not_or.1 (hneither lexeme hhead)

/-! ## Reading without proofs -/

/-- What was read, with the bare place after it. -/
def plain {α : Type} {P : Cursor → Prop} (x : Except Error (α × { c : Cursor // P c })) :
    Except Error (α × Cursor) :=
  x.map fun (a, c) => (a, c.1)

/-- A reader without its bound succeeds where the reader does. -/
theorem plain_eq_ok_iff {α : Type} {P : Cursor → Prop}
    {x : Except Error (α × { c : Cursor // P c })} {a : α} {c : Cursor} :
    plain x = .ok (a, c) ↔ ∃ h : P c, x = .ok (a, ⟨c, h⟩) := by
  rw [plain, Outcome.map_eq_ok_iff]
  constructor
  · rintro ⟨⟨a', c', h⟩, hx, heq⟩
    cases heq
    exact ⟨h, hx⟩
  · rintro ⟨h, hx⟩
    exact ⟨_, hx, rfl⟩

/-- Reads a phrase at a place. -/
def Phrase.read (stop : Nat) : (p : Phrase) → Cursor → Except Error (p.Yield × Cursor)
  | .whole, c => plain (readTerm stop c.tokens c.depth)
  | .chain level, c => plain (readChain stop level c.tokens c.depth)
  | .operand level, c => plain (readOperand stop level c.tokens c.depth)
  | .more level left, c => plain (readMore stop level left 0 c.tokens c.depth)
  | .negation, c => plain (readNot stop c.tokens c.depth)
  | .comparison, c => plain (readComparison stop c.tokens c.depth)
  | .links, c => plain (readLinks stop c.tokens c.depth)
  | .signed, c => plain (readSigned stop c.tokens c.depth)
  | .primary, c => plain (readPrimary stop c.tokens c.depth)
  | .suffixes target, c => plain (readSuffixes stop target 0 c.tokens c.depth)
  | .args, c => plain (readArgs stop c.tokens c.depth)
  | .argsFrom, c => plain (readArgsFrom stop c.tokens c.depth)

variable (stop : Nat)

/-- A whole phrase is a chain of disjunctions one level down. -/
theorem read_whole (c : Cursor) :
    Phrase.whole.read stop c = descend stop c.tokens c.depth >>= fun depth =>
      (Phrase.chain .or).read stop ⟨c.tokens, depth⟩ >>= fun r => .ok (r.1, r.2.ascend 1) := by
  show plain (readTerm stop c.tokens c.depth) = _
  rw [readTerm]
  cases descend stop c.tokens c.depth with
  | error e => rfl
  | ok depth =>
    show plain (readChain stop .or c.tokens depth >>= _) =
      plain (readChain stop .or c.tokens depth) >>= _
    cases readChain stop .or c.tokens depth <;> rfl

/-- A chain is its first operand and what carries it on. -/
theorem read_chain (level : Chain) (c : Cursor) :
    (Phrase.chain level).read stop c =
      (Phrase.operand level).read stop c >>= fun r => (Phrase.more level r.1).read stop r.2 := by
  show plain (readChain stop level c.tokens c.depth) =
    plain (readOperand stop level c.tokens c.depth) >>= _
  rw [readChain]
  cases readOperand stop level c.tokens c.depth with
  | error e => rfl
  | ok first =>
    obtain ⟨first, d⟩ := first
    show plain (readMore stop level first 0 d.1.tokens d.1.depth >>= _) =
      plain (readMore stop level first 0 d.1.tokens d.1.depth)
    cases readMore stop level first 0 d.1.tokens d.1.depth <;> rfl

theorem read_operand (level : Chain) (c : Cursor) :
    (Phrase.operand level).read stop c =
      match level with
      | .or => (Phrase.chain .and).read stop c
      | .and => Phrase.negation.read stop c
      | .sum => (Phrase.chain .product).read stop c
      | .product => Phrase.signed.read stop c := by
  show plain (readOperand stop level c.tokens c.depth) = _
  cases level <;> rw [readOperand] <;> rfl

/-! ## Readers that consume -/

/-- Is something always read, if the phrase is? -/
def Phrase.consumes : Phrase → Bool
  | .more .. | .links | .suffixes _ => false
  | _ => true

/-- A reader does not go back, and most of them go on. -/
theorem length_of_read {p : Phrase} {c c' : Cursor} {y : p.Yield}
    (h : p.read stop c = .ok (y, c')) :
    c'.tokens.length ≤ c.tokens.length ∧
      (p.consumes = true → c'.tokens.length < c.tokens.length) := by
  cases p
  case more | links | suffixes =>
    obtain ⟨hle, -⟩ := plain_eq_ok_iff.1 h
    exact ⟨hle, fun hp => absurd hp (by simp [Phrase.consumes])⟩
  all_goals
    obtain ⟨hlt, -⟩ := plain_eq_ok_iff.1 h
    exact ⟨Nat.le_of_lt hlt, fun _ => hlt⟩

/-! ## Operators of a level -/

/-- Further operators, with the levels that are held open. -/
theorem plain_readMore_some {level : Chain} {lexeme : Lexeme} {build : Term → Term → Term}
    (hbuild : level.build? lexeme.token = some build) (left : Term) (held : Nat)
    (rest : List Lexeme) (depth : Nat) :
    plain (readMore stop level left held (lexeme :: rest) depth) =
      descend stop rest depth >>= fun depth =>
        (Phrase.operand level).read stop ⟨rest, depth⟩ >>= fun r =>
          plain (readMore stop level (build left r.1) (held + 1) r.2.tokens r.2.depth) := by
  rw [readMore]
  simp only [hbuild]
  cases descend stop rest depth with
  | error e => rfl
  | ok depth =>
    show plain (readOperand stop level rest depth >>= _) =
      plain (readOperand stop level rest depth) >>= _
    cases readOperand stop level rest depth with
    | error e => rfl
    | ok right =>
      obtain ⟨right, d⟩ := right
      show plain (readMore stop level (build left right) (held + 1) d.1.tokens d.1.depth >>= _) =
        plain (readMore stop level (build left right) (held + 1) d.1.tokens d.1.depth)
      cases readMore stop level (build left right) (held + 1) d.1.tokens d.1.depth <;> rfl

/-- Where no operator of the level follows, the levels that were held open are given back. -/
theorem plain_readMore_none {level : Chain} {ts : List Lexeme}
    (hbuild : ∀ lexeme ∈ ts.head?, level.build? lexeme.token = none) (left : Term)
    (held depth : Nat) :
    plain (readMore stop level left held ts depth) = .ok (left, ⟨ts, depth - held⟩) := by
  cases ts with
  | nil =>
    rw [readMore]
    rfl
  | cons lexeme rest =>
    rw [readMore]
    simp only [hbuild lexeme rfl]
    rfl

/-- The levels that are held open matter at the end only. -/
theorem plain_readMore_held (level : Chain) (left : Term) (held : Nat) (ts : List Lexeme)
    (depth : Nat) : plain (readMore stop level left held ts depth) =
      (plain (readMore stop level left 0 ts depth)).map fun r => (r.1, r.2.ascend held) := by
  match ts with
  | [] =>
    rw [plain_readMore_none stop (by simp), plain_readMore_none stop (by simp)]
    rfl
  | lexeme :: rest =>
    cases hbuild : level.build? lexeme.token with
    | none =>
      rw [plain_readMore_none stop (by simpa using hbuild),
        plain_readMore_none stop (by simpa using hbuild)]
      rfl
    | some build =>
      rw [plain_readMore_some stop hbuild, plain_readMore_some stop hbuild]
      cases descend stop rest depth with
      | error e => rfl
      | ok depth =>
        show (Phrase.operand level).read stop ⟨rest, depth⟩ >>= _ =
          ((Phrase.operand level).read stop ⟨rest, depth⟩ >>= _).map _
        cases hright : (Phrase.operand level).read stop ⟨rest, depth⟩ with
        | error e => rfl
        | ok r =>
          have hlt : r.2.tokens.length < rest.length := (length_of_read stop hright).2 rfl
          show plain (readMore stop level (build left r.1) (held + 1) r.2.tokens r.2.depth) =
            (plain (readMore stop level (build left r.1) (0 + 1) r.2.tokens r.2.depth)).map _
          rw [plain_readMore_held level _ (held + 1), plain_readMore_held level _ (0 + 1)]
          cases plain (readMore stop level (build left r.1) 0 r.2.tokens r.2.depth) with
          | error e => rfl
          | ok s =>
            have hascend : s.2.ascend (held + 1) = (s.2.ascend (0 + 1)).ascend held := by
              simp only [Cursor.ascend, Cursor.mk.injEq, true_and]
              omega
            exact congrArg (fun c => Except.ok (s.1, c)) hascend
termination_by ts.length
decreasing_by all_goals exact Nat.lt_succ_of_lt hlt

/-- A chain ends before what is no operator of its level. -/
theorem read_more_none {level : Chain} {c : Cursor}
    (hbuild : ∀ lexeme ∈ c.tokens.head?, level.build? lexeme.token = none) (left : Term) :
    (Phrase.more level left).read stop c = .ok (left, c) := by
  show plain (readMore stop level left 0 c.tokens c.depth) = _
  rw [plain_readMore_none stop hbuild, Nat.sub_zero]

/-- An operator of the level goes one level down for its right operand. -/
theorem read_more_some {level : Chain} {lexeme : Lexeme} {build : Term → Term → Term}
    (hbuild : level.build? lexeme.token = some build) (left : Term) (rest : List Lexeme)
    (depth : Nat) : (Phrase.more level left).read stop ⟨lexeme :: rest, depth⟩ =
      descend stop rest depth >>= fun depth =>
        (Phrase.operand level).read stop ⟨rest, depth⟩ >>= fun r =>
          (Phrase.more level (build left r.1)).read stop r.2 >>= fun s =>
            .ok (s.1, s.2.ascend 1) := by
  show plain (readMore stop level left 0 (lexeme :: rest) depth) = _
  rw [plain_readMore_some stop hbuild]
  refine congrArg _ (funext fun depth => congrArg _ (funext fun r => ?_))
  rw [plain_readMore_held]
  show _ = plain (readMore stop level (build left r.1) 0 r.2.tokens r.2.depth) >>= _
  cases plain (readMore stop level (build left r.1) 0 r.2.tokens r.2.depth) <;> rfl

/-! ## Negations and comparisons -/

/-- A negation reads what it negates one level down. -/
theorem read_negation_not (lexeme : Lexeme) (hnot : lexeme.token = .not) (rest : List Lexeme)
    (depth : Nat) : Phrase.negation.read stop ⟨lexeme :: rest, depth⟩ =
      descend stop rest depth >>= fun depth =>
        Phrase.negation.read stop ⟨rest, depth⟩ >>= fun r => .ok (.not r.1, r.2.ascend 1) := by
  obtain ⟨offset, text, token⟩ := lexeme
  obtain rfl : token = .not := hnot
  show plain (readNot stop (⟨offset, text, .not⟩ :: rest) depth) = _
  rw [readNot]
  cases descend stop rest depth with
  | error e => rfl
  | ok depth =>
    show plain (readNot stop rest depth >>= _) = plain (readNot stop rest depth) >>= _
    cases readNot stop rest depth <;> rfl

/-- Without its word a negation is a comparison. -/
theorem read_negation (c : Cursor) (hnot : ∀ lexeme ∈ c.tokens.head?, lexeme.token ≠ .not) :
    Phrase.negation.read stop c = Phrase.comparison.read stop c := by
  obtain ⟨ts, depth⟩ := c
  show plain (readNot stop ts depth) = plain (readComparison stop ts depth)
  rw [readNot]
  rintro offset text rest rfl
  exact hnot _ rfl rfl

/-- A sum without comparisons behind it stays what it is. -/
theorem read_comparison (c : Cursor) :
    Phrase.comparison.read stop c =
      (Phrase.chain .sum).read stop c >>= fun r =>
        Phrase.links.read stop r.2 >>= fun s =>
          .ok (if s.1.isEmpty then r.1 else .compare r.1 s.1, s.2) := by
  show plain (readComparison stop c.tokens c.depth) =
    plain (readChain stop .sum c.tokens c.depth) >>= _
  rw [readComparison]
  cases readChain stop .sum c.tokens c.depth with
  | error e => rfl
  | ok first =>
    obtain ⟨first, d⟩ := first
    show plain (readLinks stop d.1.tokens d.1.depth >>= _) =
      plain (readLinks stop d.1.tokens d.1.depth) >>= _
    cases readLinks stop d.1.tokens d.1.depth <;> rfl

/-- Comparisons end before what is no comparison operator. -/
theorem read_links_none {c : Cursor} (hop : compareOp? c.tokens = none) :
    Phrase.links.read stop c = .ok ([], c) := by
  show plain (readLinks stop c.tokens c.depth) = _
  rw [readLinks, hop]
  rfl

/-- A comparison operator, the sum behind it, and the comparisons after that. -/
theorem read_links_some {c : Cursor} {op : CompareOp}
    {rest : { rest : List Lexeme // rest.length < c.tokens.length }}
    (hop : compareOp? c.tokens = some (op, rest)) :
    Phrase.links.read stop c =
      (Phrase.chain .sum).read stop ⟨rest.1, c.depth⟩ >>= fun r =>
        Phrase.links.read stop r.2 >>= fun s => .ok ((op, r.1) :: s.1, s.2) := by
  show plain (readLinks stop c.tokens c.depth) =
    plain (readChain stop .sum rest.1 c.depth) >>= _
  rw [readLinks, hop]
  show plain (readChain stop .sum rest.1 c.depth >>= _) = _
  cases readChain stop .sum rest.1 c.depth with
  | error e => rfl
  | ok operand =>
    obtain ⟨operand, d⟩ := operand
    show plain (readLinks stop d.1.tokens d.1.depth >>= _) =
      plain (readLinks stop d.1.tokens d.1.depth) >>= _
    cases readLinks stop d.1.tokens d.1.depth <;> rfl

/-! ## Signs -/

/-- A minus sign reads what it stands before one level down. -/
theorem read_signed_minus (lexeme : Lexeme) (hminus : lexeme.token = .minus)
    (rest : List Lexeme) (depth : Nat) :
    Phrase.signed.read stop ⟨lexeme :: rest, depth⟩ =
      descend stop rest depth >>= fun depth =>
        Phrase.signed.read stop ⟨rest, depth⟩ >>= fun r => .ok (.neg r.1, r.2.ascend 1) := by
  obtain ⟨offset, text, token⟩ := lexeme
  obtain rfl : token = .minus := hminus
  show plain (readSigned stop (⟨offset, text, .minus⟩ :: rest) depth) = _
  rw [readSigned]
  cases descend stop rest depth with
  | error e => rfl
  | ok depth =>
    show plain (readSigned stop rest depth >>= _) = plain (readSigned stop rest depth) >>= _
    cases readSigned stop rest depth <;> rfl

/-- A plus sign costs a level and leaves no node. -/
theorem read_signed_plus (lexeme : Lexeme) (hplus : lexeme.token = .plus)
    (rest : List Lexeme) (depth : Nat) :
    Phrase.signed.read stop ⟨lexeme :: rest, depth⟩ =
      descend stop rest depth >>= fun depth =>
        Phrase.signed.read stop ⟨rest, depth⟩ >>= fun r => .ok (r.1, r.2.ascend 1) := by
  obtain ⟨offset, text, token⟩ := lexeme
  obtain rfl : token = .plus := hplus
  show plain (readSigned stop (⟨offset, text, .plus⟩ :: rest) depth) = _
  rw [readSigned]
  cases descend stop rest depth with
  | error e => rfl
  | ok depth =>
    show plain (readSigned stop rest depth >>= _) = plain (readSigned stop rest depth) >>= _
    cases readSigned stop rest depth <;> rfl

/-- Without a sign a signed term is a primary with suffixes. -/
theorem read_signed (c : Cursor)
    (hsign : ∀ lexeme ∈ c.tokens.head?, lexeme.token ≠ .minus ∧ lexeme.token ≠ .plus) :
    Phrase.signed.read stop c =
      Phrase.primary.read stop c >>= fun r => (Phrase.suffixes r.1).read stop r.2 := by
  obtain ⟨ts, depth⟩ := c
  show plain (readSigned stop ts depth) = plain (readPrimary stop ts depth) >>= _
  rw [readSigned]
  · cases readPrimary stop ts depth with
    | error e => rfl
    | ok first =>
      obtain ⟨first, d⟩ := first
      show plain (readSuffixes stop first 0 d.1.tokens d.1.depth >>= _) =
        plain (readSuffixes stop first 0 d.1.tokens d.1.depth)
      cases readSuffixes stop first 0 d.1.tokens d.1.depth <;> rfl
  · rintro offset text rest rfl
    exact (hsign _ rfl).1 rfl
  · rintro offset text rest rfl
    exact (hsign _ rfl).2 rfl

/-! ## Indices and methods -/

/-- The tokens after a closing bracket. -/
def afterBracket : List Lexeme → Except Error (List Lexeme)
  | ⟨_, _, .rightBracket⟩ :: more => .ok more
  | ts => problemAt stop ts (.expected .rightBracket)

/-- An index is closed by its bracket and by nothing else. -/
theorem afterBracket_eq_ok_iff {ts more : List Lexeme} :
    afterBracket stop ts = .ok more ↔
      ∃ lexeme, ts = lexeme :: more ∧ lexeme.token = .rightBracket := by
  constructor
  · intro h
    unfold afterBracket at h
    split at h
    · exact ⟨_, congrArg _ (Except.ok.inj h), rfl⟩
    · cases h
  · rintro ⟨⟨offset, text, token⟩, rfl, h⟩
    obtain rfl : token = .rightBracket := h
    rfl

/-- The name of a method and the tokens after its opening parenthesis. -/
def methodHead : List Lexeme → Except Error (String × List Lexeme)
  | ⟨_, _, .ident name⟩ :: ⟨_, _, .leftParen⟩ :: more => .ok (name, more)
  | ⟨_, _, .ident _⟩ :: more => problemAt stop more (.expected .leftParen)
  | ts => problemAt stop (ts.drop 1) .expectedMethod

/-- A method is named behind its dot, and its parenthesis follows. -/
theorem methodHead_eq_ok_iff {ts more : List Lexeme} {name : String} :
    methodHead stop ts = .ok (name, more) ↔
      ∃ lexeme paren, ts = lexeme :: paren :: more ∧ lexeme.token = .ident name ∧
        paren.token = .leftParen := by
  constructor
  · intro h
    unfold methodHead at h
    split at h
    · obtain ⟨rfl, rfl⟩ := Prod.mk.inj (Except.ok.inj h)
      exact ⟨_, _, rfl, rfl, rfl⟩
    · cases h
    · cases h
  · rintro ⟨⟨_, _, token⟩, ⟨_, _, paren⟩, rfl, h, hparen⟩
    obtain rfl : token = .ident name := h
    obtain rfl : paren = .leftParen := hparen
    rfl

/-- Where suffixes end, the levels that they held are given back. -/
theorem plain_readSuffixes_none {ts : List Lexeme}
    (hsuffix : ∀ lexeme ∈ ts.head?, lexeme.token ≠ .leftBracket ∧ lexeme.token ≠ .dot)
    (target : Term) (held depth : Nat) :
    plain (readSuffixes stop target held ts depth) = .ok (target, ⟨ts, depth - held⟩) := by
  rw [readSuffixes]
  · rfl
  · rintro offset text rest rfl
    exact (hsuffix _ rfl).1 rfl
  · rintro offset text rest rfl
    exact (hsuffix _ rfl).2 rfl

/-- An index holds one more level until all suffixes are read. -/
theorem plain_readSuffixes_index {lexeme : Lexeme} (hbracket : lexeme.token = .leftBracket)
    (target : Term) (held : Nat) (rest : List Lexeme) (depth : Nat) :
    plain (readSuffixes stop target held (lexeme :: rest) depth) =
      descend stop (lexeme :: rest) depth >>= fun depth =>
        Phrase.whole.read stop ⟨rest, depth⟩ >>= fun r =>
          afterBracket stop r.2.tokens >>= fun more =>
            plain (readSuffixes stop (.index target r.1) (held + 1) more r.2.depth) := by
  obtain ⟨offset, text, token⟩ := lexeme
  obtain rfl : token = .leftBracket := hbracket
  rw [readSuffixes]
  cases descend stop (⟨offset, text, .leftBracket⟩ :: rest) depth with
  | error e => rfl
  | ok depth =>
    show plain (readTerm stop rest depth >>= _) = plain (readTerm stop rest depth) >>= _
    cases readTerm stop rest depth with
    | error e => rfl
    | ok index =>
      obtain ⟨index, ⟨⟨ts, depth⟩, hlt⟩⟩ := index
      cases ts with
      | nil => rfl
      | cons next more =>
        obtain ⟨_, _, token⟩ := next
        cases token with
        | rightBracket =>
          show plain (readSuffixes stop (.index target index) (held + 1) more depth >>= _) =
            plain (readSuffixes stop (.index target index) (held + 1) more depth)
          cases readSuffixes stop (.index target index) (held + 1) more depth <;> rfl
        | _ => rfl

/-- A method call holds one more level until all suffixes are read. -/
theorem plain_readSuffixes_method {lexeme : Lexeme} (hdot : lexeme.token = .dot)
    (target : Term) (held : Nat) (rest : List Lexeme) (depth : Nat) :
    plain (readSuffixes stop target held (lexeme :: rest) depth) =
      descend stop (lexeme :: rest) depth >>= fun depth =>
        methodHead stop rest >>= fun head =>
          Phrase.args.read stop ⟨head.2, depth⟩ >>= fun r =>
            plain (readSuffixes stop (.method target head.1 r.1) (held + 1) r.2.tokens
              r.2.depth) := by
  obtain ⟨offset, text, token⟩ := lexeme
  obtain rfl : token = .dot := hdot
  rw [readSuffixes]
  cases descend stop (⟨offset, text, .dot⟩ :: rest) depth with
  | error e => rfl
  | ok depth =>
    cases rest with
    | nil => rfl
    | cons next more =>
      obtain ⟨_, _, token⟩ := next
      cases token with
      | ident name =>
        cases more with
        | nil => rfl
        | cons next more =>
          obtain ⟨_, _, paren⟩ := next
          cases paren with
          | leftParen =>
            show plain (readArgs stop more depth >>= _) = plain (readArgs stop more depth) >>= _
            cases readArgs stop more depth with
            | error e => rfl
            | ok args =>
              obtain ⟨args, d⟩ := args
              show plain (readSuffixes stop (.method target name args) (held + 1) d.1.tokens
                d.1.depth >>= _) = plain (readSuffixes stop (.method target name args) (held + 1)
                  d.1.tokens d.1.depth)
              cases readSuffixes stop (.method target name args) (held + 1) d.1.tokens d.1.depth <;>
                rfl
          | _ => rfl
      | _ => rfl

/-- The levels that are held open matter at the end only. -/
theorem plain_readSuffixes_held (target : Term) (held : Nat) (ts : List Lexeme) (depth : Nat) :
    plain (readSuffixes stop target held ts depth) =
      (plain (readSuffixes stop target 0 ts depth)).map fun r => (r.1, r.2.ascend held) := by
  have hascend : ∀ (c : Cursor) (held : Nat), (c.ascend (0 + 1)).ascend held =
      c.ascend (held + 1) := by
    intro c held
    simp only [Cursor.ascend, Cursor.mk.injEq, true_and]
    omega
  match ts with
  | [] =>
    rw [plain_readSuffixes_none stop (by simp), plain_readSuffixes_none stop (by simp)]
    rfl
  | lexeme :: rest =>
    by_cases hbracket : lexeme.token = .leftBracket
    · rw [plain_readSuffixes_index stop hbracket, plain_readSuffixes_index stop hbracket]
      cases descend stop (lexeme :: rest) depth with
      | error e => rfl
      | ok depth =>
        show Phrase.whole.read stop ⟨rest, depth⟩ >>= _ =
          (Phrase.whole.read stop ⟨rest, depth⟩ >>= _).map _
        cases hindex : Phrase.whole.read stop ⟨rest, depth⟩ with
        | error e => rfl
        | ok r =>
          show afterBracket stop r.2.tokens >>= _ = (afterBracket stop r.2.tokens >>= _).map _
          cases hmore : afterBracket stop r.2.tokens with
          | error e => rfl
          | ok more =>
            have hlt : more.length < rest.length := by
              have hr : r.2.tokens.length < rest.length := (length_of_read stop hindex).2 rfl
              obtain ⟨_, htokens, -⟩ := (afterBracket_eq_ok_iff stop).1 hmore
              rw [htokens, List.length_cons] at hr
              omega
            show plain (readSuffixes stop (.index target r.1) (held + 1) more r.2.depth) =
              (plain (readSuffixes stop (.index target r.1) (0 + 1) more r.2.depth)).map _
            rw [plain_readSuffixes_held _ (held + 1), plain_readSuffixes_held _ (0 + 1)]
            cases plain (readSuffixes stop (.index target r.1) 0 more r.2.depth) with
            | error e => rfl
            | ok s => exact congrArg (fun c => Except.ok (s.1, c)) (hascend s.2 held).symm
    · by_cases hdot : lexeme.token = .dot
      · rw [plain_readSuffixes_method stop hdot, plain_readSuffixes_method stop hdot]
        cases descend stop (lexeme :: rest) depth with
        | error e => rfl
        | ok depth =>
          show methodHead stop rest >>= _ = (methodHead stop rest >>= _).map _
          cases hhead : methodHead stop rest with
          | error e => rfl
          | ok head =>
            show Phrase.args.read stop ⟨head.2, depth⟩ >>= _ =
              (Phrase.args.read stop ⟨head.2, depth⟩ >>= _).map _
            cases hargs : Phrase.args.read stop ⟨head.2, depth⟩ with
            | error e => rfl
            | ok r =>
              have hlt : r.2.tokens.length < rest.length := by
                have hr : r.2.tokens.length < head.2.length := (length_of_read stop hargs).2 rfl
                obtain ⟨_, _, htokens, -, -⟩ := (methodHead_eq_ok_iff stop).1 hhead
                rw [htokens, List.length_cons, List.length_cons]
                omega
              show plain (readSuffixes stop (.method target head.1 r.1) (held + 1) r.2.tokens
                r.2.depth) = (plain (readSuffixes stop (.method target head.1 r.1) (0 + 1)
                  r.2.tokens r.2.depth)).map _
              rw [plain_readSuffixes_held _ (held + 1), plain_readSuffixes_held _ (0 + 1)]
              cases plain (readSuffixes stop (.method target head.1 r.1) 0 r.2.tokens r.2.depth) with
              | error e => rfl
              | ok s => exact congrArg (fun c => Except.ok (s.1, c)) (hascend s.2 held).symm
      · rw [plain_readSuffixes_none stop (by simp [hbracket, hdot]),
          plain_readSuffixes_none stop (by simp [hbracket, hdot])]
        rfl
termination_by ts.length
decreasing_by all_goals exact Nat.lt_succ_of_lt hlt

/-- No suffix leaves a term as it is. -/
theorem read_suffixes_none {c : Cursor}
    (hsuffix : ∀ lexeme ∈ c.tokens.head?, lexeme.token ≠ .leftBracket ∧ lexeme.token ≠ .dot)
    (target : Term) : (Phrase.suffixes target).read stop c = .ok (target, c) := by
  show plain (readSuffixes stop target 0 c.tokens c.depth) = _
  rw [plain_readSuffixes_none stop hsuffix, Nat.sub_zero]

/-- An index, and then the suffixes of the indexed term. -/
theorem read_suffixes_index {lexeme : Lexeme} (hbracket : lexeme.token = .leftBracket)
    (target : Term) (rest : List Lexeme) (depth : Nat) :
    (Phrase.suffixes target).read stop ⟨lexeme :: rest, depth⟩ =
      descend stop (lexeme :: rest) depth >>= fun depth =>
        Phrase.whole.read stop ⟨rest, depth⟩ >>= fun r =>
          afterBracket stop r.2.tokens >>= fun more =>
            (Phrase.suffixes (.index target r.1)).read stop ⟨more, r.2.depth⟩ >>= fun s =>
              .ok (s.1, s.2.ascend 1) := by
  show plain (readSuffixes stop target 0 (lexeme :: rest) depth) = _
  rw [plain_readSuffixes_index stop hbracket]
  refine congrArg _ (funext fun depth => congrArg _ (funext fun r => congrArg _ (funext fun more =>
    ?_)))
  rw [plain_readSuffixes_held]
  show _ = plain (readSuffixes stop (.index target r.1) 0 more r.2.depth) >>= _
  cases plain (readSuffixes stop (.index target r.1) 0 more r.2.depth) <;> rfl

/-- A method call, and then the suffixes of the called term. -/
theorem read_suffixes_method {lexeme : Lexeme} (hdot : lexeme.token = .dot) (target : Term)
    (rest : List Lexeme) (depth : Nat) :
    (Phrase.suffixes target).read stop ⟨lexeme :: rest, depth⟩ =
      descend stop (lexeme :: rest) depth >>= fun depth =>
        methodHead stop rest >>= fun head =>
          Phrase.args.read stop ⟨head.2, depth⟩ >>= fun r =>
            (Phrase.suffixes (.method target head.1 r.1)).read stop r.2 >>= fun s =>
              .ok (s.1, s.2.ascend 1) := by
  show plain (readSuffixes stop target 0 (lexeme :: rest) depth) = _
  rw [plain_readSuffixes_method stop hdot]
  refine congrArg _ (funext fun depth => congrArg _ (funext fun head => congrArg _ (funext fun r =>
    ?_)))
  rw [plain_readSuffixes_held]
  show _ = plain (readSuffixes stop (.method target head.1 r.1) 0 r.2.tokens r.2.depth) >>= _
  cases plain (readSuffixes stop (.method target head.1 r.1) 0 r.2.tokens r.2.depth) <;> rfl

/-! ## Arguments and primaries -/

theorem read_args_none {lexeme : Lexeme} (hparen : lexeme.token = .rightParen)
    (rest : List Lexeme) (depth : Nat) :
    Phrase.args.read stop ⟨lexeme :: rest, depth⟩ = .ok ([], ⟨rest, depth⟩) := by
  obtain ⟨offset, text, token⟩ := lexeme
  obtain rfl : token = .rightParen := hparen
  show plain (readArgs stop (⟨offset, text, .rightParen⟩ :: rest) depth) = _
  rw [readArgs]
  rfl

/-- Arguments that do not end at once are read from the first one on. -/
theorem read_args (c : Cursor) (hparen : ∀ lexeme ∈ c.tokens.head?, lexeme.token ≠ .rightParen) :
    Phrase.args.read stop c = Phrase.argsFrom.read stop c := by
  obtain ⟨ts, depth⟩ := c
  show plain (readArgs stop ts depth) = plain (readArgsFrom stop ts depth)
  rw [readArgs]
  rintro offset text rest rfl
  exact hparen _ rfl rfl

/-- After an argument stands a parenthesis, which ends them, or a comma, behind which they go on. -/
theorem read_argsFrom (c : Cursor) :
    Phrase.argsFrom.read stop c =
      Phrase.whole.read stop c >>= fun r =>
        match r.2.tokens with
        | ⟨_, _, .rightParen⟩ :: rest => .ok ([r.1], ⟨rest, r.2.depth⟩)
        | ⟨_, _, .comma⟩ :: rest =>
          Phrase.argsFrom.read stop ⟨rest, r.2.depth⟩ >>= fun s => .ok (r.1 :: s.1, s.2)
        | rest => problemAt stop rest (.expected .comma) := by
  show plain (readArgsFrom stop c.tokens c.depth) = plain (readTerm stop c.tokens c.depth) >>= _
  rw [readArgsFrom]
  cases readTerm stop c.tokens c.depth with
  | error e => rfl
  | ok arg =>
    obtain ⟨arg, ⟨⟨ts, depth⟩, hlt⟩⟩ := arg
    match ts, hlt with
    | [], _ => rfl
    | ⟨_, _, token⟩ :: rest, hlt =>
      cases token with
      | comma =>
        show plain (readArgsFrom stop rest depth >>= _) = plain (readArgsFrom stop rest depth) >>= _
        cases readArgsFrom stop rest depth <;> rfl
      | _ => rfl

/-- The value that a token writes on its own. -/
def Token.literal? : Token → Option Value
  | .int n => some (.int n)
  | .float x => some (.float x)
  | .str s => some (.str s)
  | .true => some (.bool Bool.true)
  | .false => some (.bool Bool.false)
  | _ => none

/-- A literal is a primary by itself. -/
theorem read_primary_literal {lexeme : Lexeme} {value : Value}
    (hliteral : lexeme.token.literal? = some value) (rest : List Lexeme) (depth : Nat) :
    Phrase.primary.read stop ⟨lexeme :: rest, depth⟩ = .ok (.literal value, ⟨rest, depth⟩) := by
  obtain ⟨offset, text, token⟩ := lexeme
  show plain (readPrimary stop (⟨offset, text, token⟩ :: rest) depth) = _
  cases token <;> cases hliteral <;> rw [readPrimary] <;> rfl

/-- A name before a parenthesis is called, unless it begins with a dollar sign. -/
theorem read_primary_call {lexeme paren : Lexeme} {name : String}
    (hname : lexeme.token = .ident name) (hparen : paren.token = .leftParen)
    (hdollar : name.startsWith "$" = false) (rest : List Lexeme) (depth : Nat) :
    Phrase.primary.read stop ⟨lexeme :: paren :: rest, depth⟩ =
      Phrase.args.read stop ⟨rest, depth⟩ >>= fun r => .ok (.call name r.1, r.2) := by
  obtain ⟨offset, text, token⟩ := lexeme
  obtain ⟨offset', text', token'⟩ := paren
  obtain rfl : token = .ident name := hname
  obtain rfl : token' = .leftParen := hparen
  show plain (readPrimary stop (⟨offset, text, .ident name⟩ :: ⟨offset', text', .leftParen⟩ :: rest)
    depth) = plain (readArgs stop rest depth) >>= _
  rw [readPrimary, if_neg (by simp [hdollar])]
  cases readArgs stop rest depth <;> rfl

/-- Any other name stands for itself. -/
theorem read_primary_name {lexeme : Lexeme} {name : String} (hname : lexeme.token = .ident name)
    {rest : List Lexeme}
    (hcall : ∀ paren ∈ rest.head?, paren.token = .leftParen → name.startsWith "$" = true)
    (depth : Nat) :
    Phrase.primary.read stop ⟨lexeme :: rest, depth⟩ = .ok (.name name, ⟨rest, depth⟩) := by
  obtain ⟨offset, text, token⟩ := lexeme
  obtain rfl : token = .ident name := hname
  show plain (readPrimary stop (⟨offset, text, .ident name⟩ :: rest) depth) = _
  match rest with
  | [] =>
    rw [readPrimary]
    · rfl
    · simp
  | ⟨offset', text', token'⟩ :: rest =>
    by_cases hparen : token' = .leftParen
    · subst hparen
      rw [readPrimary, if_pos (hcall _ rfl rfl)]
      rfl
    · rw [readPrimary]
      · rfl
      · rintro o s rest' h
        cases h
        exact hparen rfl

/-- Between parentheses stands a whole phrase. -/
theorem read_primary_paren {lexeme : Lexeme} (hparen : lexeme.token = .leftParen)
    (rest : List Lexeme) (depth : Nat) :
    Phrase.primary.read stop ⟨lexeme :: rest, depth⟩ =
      Phrase.whole.read stop ⟨rest, depth⟩ >>= fun r =>
        match r.2.tokens with
        | ⟨_, _, .rightParen⟩ :: more => .ok (r.1, ⟨more, r.2.depth⟩)
        | more => problemAt stop more (.expected .rightParen) := by
  obtain ⟨offset, text, token⟩ := lexeme
  obtain rfl : token = .leftParen := hparen
  show plain (readPrimary stop (⟨offset, text, .leftParen⟩ :: rest) depth) =
    plain (readTerm stop rest depth) >>= _
  rw [readPrimary]
  cases readTerm stop rest depth with
  | error e => rfl
  | ok term =>
    obtain ⟨term, ⟨⟨ts, depth⟩, hlt⟩⟩ := term
    cases ts with
    | nil => rfl
    | cons next more =>
      obtain ⟨_, _, token⟩ := next
      cases token <;> rfl

theorem read_primary_nil (depth : Nat) :
    Phrase.primary.read stop ⟨[], depth⟩ = problemAt stop [] .unexpectedEnd := by
  show plain (readPrimary stop [] depth) = _
  rw [readPrimary]
  rfl

/-- Nothing but a value, a name or a parenthesis begins a primary. -/
theorem read_primary_unexpected {lexeme : Lexeme} (hliteral : lexeme.token.literal? = none)
    (hident : ∀ name, lexeme.token ≠ .ident name) (hparen : lexeme.token ≠ .leftParen)
    (rest : List Lexeme) (depth : Nat) :
    Phrase.primary.read stop ⟨lexeme :: rest, depth⟩ =
      problemAt stop (lexeme :: rest) (.unexpected lexeme.token) := by
  obtain ⟨offset, text, token⟩ := lexeme
  show plain (readPrimary stop (⟨offset, text, token⟩ :: rest) depth) = _
  cases token with
  | int | float | str | true | false => cases hliteral
  | ident name => exact absurd rfl (hident name)
  | leftParen => exact absurd rfl hparen
  | _ =>
    rw [readPrimary]
    · rfl
    all_goals simp

/-- Every other token is a problem where a primary is to be read. -/
theorem read_primary_error {c : Cursor}
    (hhead : ∀ lexeme ∈ c.tokens.head?, lexeme.token.literal? = none ∧
      (∀ name, lexeme.token ≠ .ident name) ∧ lexeme.token ≠ .leftParen) :
    ∃ problem, Phrase.primary.read stop c = problemAt stop c.tokens problem := by
  obtain ⟨ts, depth⟩ := c
  match ts with
  | [] => exact ⟨_, read_primary_nil stop depth⟩
  | lexeme :: rest =>
    obtain ⟨hliteral, hident, hparen⟩ := hhead lexeme rfl
    exact ⟨_, read_primary_unexpected stop hliteral hident hparen rest depth⟩

/-- A primary begins with a value, with a name that is not called, with one that is, or with a
    parenthesis, or the first token begins none. -/
theorem primary_cases (ts : List Lexeme) :
    (∀ lexeme ∈ ts.head?, lexeme.token.literal? = none ∧ (∀ name, lexeme.token ≠ .ident name) ∧
        lexeme.token ≠ .leftParen) ∨
      (∃ lexeme rest value, ts = lexeme :: rest ∧ lexeme.token.literal? = some value) ∨
      (∃ lexeme rest name, ts = lexeme :: rest ∧ lexeme.token = .ident name ∧
        ∀ paren ∈ rest.head?, paren.token = .leftParen → name.startsWith "$" = true) ∨
      (∃ lexeme paren rest name, ts = lexeme :: paren :: rest ∧ lexeme.token = .ident name ∧
        paren.token = .leftParen ∧ name.startsWith "$" = false) ∨
      ∃ lexeme rest, ts = lexeme :: rest ∧ lexeme.token = .leftParen := by
  rcases head_cases (fun lexeme => (∃ value, lexeme.token.literal? = some value) ∨
      (∃ name, lexeme.token = .ident name) ∨ lexeme.token = .leftParen) ts with
    hbad | ⟨lexeme, rest, rfl, ⟨value, hvalue⟩ | ⟨name, hname⟩ | hparen⟩
  · refine .inl fun lexeme hhead => ?_
    obtain ⟨hvalue, hothers⟩ := not_or.1 (hbad lexeme hhead)
    obtain ⟨hname, hparen⟩ := not_or.1 hothers
    exact ⟨Option.eq_none_iff_forall_ne_some.2 (not_exists.1 hvalue), not_exists.1 hname, hparen⟩
  · exact .inr (.inl ⟨lexeme, rest, value, rfl, hvalue⟩)
  · rcases head_cases (fun paren => paren.token = .leftParen ∧ name.startsWith "$" = false) rest with
      hcall | ⟨paren, rest, rfl, hparen, hdollar⟩
    · refine .inr (.inr (.inl ⟨lexeme, rest, name, rfl, hname, fun paren hhead hparen => ?_⟩))
      exact eq_true_of_ne_false fun hdollar => hcall paren hhead ⟨hparen, hdollar⟩
    · exact .inr (.inr (.inr (.inl ⟨lexeme, paren, rest, name, rfl, hname, hparen, hdollar⟩)))
  · exact .inr (.inr (.inr (.inr ⟨lexeme, rest, rfl, hparen⟩)))

end RuleSieve.Predicate
