/-
  Reading a term from tokens.

  From the loosest to the tightest binding: `or`, `and`, `not`, comparisons, `+` and `-`, the other
  arithmetic operators, signs, and at last indices and methods.  Every reader gets the tokens and the
  depth it starts at, and gives back a term and a place further on; going deeper than `maxDepth` is
  an error, so that a term is never too deep to be evaluated.
-/
import RuleSieve.Predicate.Lexer
import RuleSieve.Predicate.Term

namespace RuleSieve.Predicate

/-! ## Places -/

/-- A place in the tokens: what is left of them, and the depth. -/
structure Cursor where
  tokens : List Lexeme
  depth : Nat

/-- A place further on than the tokens `ts`. -/
abbrev Beyond (ts : List Lexeme) := { c : Cursor // c.tokens.length < ts.length }

/-- A place not before the tokens `ts`. -/
abbrev AtLeast (ts : List Lexeme) := { c : Cursor // c.tokens.length ≤ ts.length }

/-- Deeper than this no term goes. -/
def maxDepth : Nat := 256

/-- The offset of the next token, or of the end of the source. -/
def offsetOf (stop : Nat) : List Lexeme → Nat
  | [] => stop
  | lexeme :: _ => lexeme.offset

/-- A problem with the next token. -/
def problemAt {α : Type} (stop : Nat) (ts : List Lexeme) (problem : SyntaxProblem) :
    Except Error α :=
  .error (.illFormed (offsetOf stop ts) problem)

/-- The depth one level down. -/
def descend (stop : Nat) (ts : List Lexeme) (depth : Nat) : Except Error Nat :=
  if depth < maxDepth then .ok (depth + 1) else problemAt stop ts .tooDeep

/-- The place with the depth some levels up. -/
def Cursor.ascend (c : Cursor) (levels : Nat) : Cursor := { c with depth := c.depth - levels }

/-! ## Operators -/

/-- The levels of operators that are read from the left. -/
inductive Chain where
  | or
  | and
  | sum
  | product
  deriving Repr, DecidableEq

/-- What the token builds from two operands of the level. -/
def Chain.build? : Chain → Token → Option (Term → Term → Term)
  | .or, .or => some .or
  | .and, .and => some .and
  | .sum, .plus => some (.arith .add)
  | .sum, .minus => some (.arith .sub)
  | .product, .star => some (.arith .mul)
  | .product, .slash => some (.arith .div)
  | .product, .doubleSlash => some (.arith .floorDiv)
  | .product, .percent => some (.arith .mod)
  | _, _ => none

/-- How tightly the level binds, counted from the tightest. -/
def Chain.rank : Chain → Nat
  | .or => 11
  | .and => 9
  | .sum => 5
  | .product => 3

/-- The comparison operator at the start of the tokens, with the tokens after it. -/
def compareOp? :
    (ts : List Lexeme) → Option (CompareOp × { rest : List Lexeme // rest.length < ts.length })
  | ⟨_, _, .not⟩ :: ⟨_, _, .within⟩ :: rest =>
    some (.notWithin, ⟨rest, by simp only [List.length_cons]; omega⟩)
  | lexeme :: rest =>
    let op :=
      match lexeme.token with
      | .equal => some CompareOp.equal
      | .notEqual => some .notEqual
      | .less => some .less
      | .lessEqual => some .lessEqual
      | .greater => some .greater
      | .greaterEqual => some .greaterEqual
      | .within => some .within
      | .tilde => some .matching
      | _ => none
    op.map (·, ⟨rest, by simp⟩)
  | [] => none

/-! ## Terms -/

mutual

/-- Reads a whole term. -/
def readTerm (stop : Nat) (ts : List Lexeme) (depth : Nat) : Except Error (Term × Beyond ts) := do
  let depth ← descend stop ts depth
  let (term, c) ← readChain stop .or ts depth
  return (term, ⟨c.1.ascend 1, c.2⟩)
termination_by (ts.length, 12)
decreasing_by exact Prod.Lex.right _ (by decide)

/-- Reads operands of a level and the operators between them. -/
def readChain (stop : Nat) (level : Chain) (ts : List Lexeme) (depth : Nat) :
    Except Error (Term × Beyond ts) := do
  let (first, c) ← readOperand stop level ts depth
  let (term, d) ← readMore stop level first 0 c.1.tokens c.1.depth
  return (term, ⟨d.1, Nat.lt_of_le_of_lt d.2 c.2⟩)
termination_by (ts.length, level.rank)
decreasing_by
  · exact Prod.Lex.right _ (by cases level <;> decide)
  · exact Prod.Lex.left _ _ c.2

/-- Reads further operators and operands of a level, `levels` deep already. -/
def readMore (stop : Nat) (level : Chain) (left : Term) (levels : Nat) (ts : List Lexeme)
    (depth : Nat) : Except Error (Term × AtLeast ts) :=
  match ts with
  | [] => .ok (left, ⟨Cursor.ascend ⟨[], depth⟩ levels, by simp [Cursor.ascend]⟩)
  | lexeme :: rest =>
    match level.build? lexeme.token with
    | none => .ok (left, ⟨Cursor.ascend ⟨lexeme :: rest, depth⟩ levels, by simp [Cursor.ascend]⟩)
    | some build => do
      let depth ← descend stop rest depth
      let (right, c) ← readOperand stop level rest depth
      let (term, d) ← readMore stop level (build left right) (levels + 1) c.1.tokens c.1.depth
      return (term, ⟨d.1, by have h₁ := c.2; have h₂ := d.2; simp; omega⟩)
termination_by (ts.length, 0)

/-- Reads one operand of a level. -/
def readOperand (stop : Nat) (level : Chain) (ts : List Lexeme) (depth : Nat) :
    Except Error (Term × Beyond ts) :=
  match level with
  | .or => readChain stop .and ts depth
  | .and => readNot stop ts depth
  | .sum => readChain stop .product ts depth
  | .product => readSigned stop ts depth
termination_by (ts.length, level.rank - 1)
decreasing_by all_goals exact Prod.Lex.right _ (by decide)

/-- Reads a comparison, or the negation of one. -/
def readNot (stop : Nat) (ts : List Lexeme) (depth : Nat) : Except Error (Term × Beyond ts) :=
  match ts with
  | ⟨_, _, .not⟩ :: rest => do
    let depth ← descend stop rest depth
    let (term, c) ← readNot stop rest depth
    return (.not term, ⟨c.1.ascend 1, by have h := c.2; simp [Cursor.ascend]; omega⟩)
  | ts => readComparison stop ts depth
termination_by (ts.length, 7)

/-- Reads a sum, or a chain of comparisons between sums. -/
def readComparison (stop : Nat) (ts : List Lexeme) (depth : Nat) :
    Except Error (Term × Beyond ts) := do
  let (first, c) ← readChain stop .sum ts depth
  let (links, d) ← readLinks stop c.1.tokens c.1.depth
  let term := if links.isEmpty then first else .compare first links
  return (term, ⟨d.1, Nat.lt_of_le_of_lt d.2 c.2⟩)
termination_by (ts.length, 6)
decreasing_by
  · exact Prod.Lex.right _ (by decide)
  · exact Prod.Lex.left _ _ c.2

/-- Reads further comparison operators and their operands. -/
def readLinks (stop : Nat) (ts : List Lexeme) (depth : Nat) :
    Except Error (List (CompareOp × Term) × AtLeast ts) :=
  match compareOp? ts with
  | none => .ok ([], ⟨⟨ts, depth⟩, Nat.le_refl _⟩)
  | some (op, rest) => do
    let (operand, c) ← readChain stop .sum rest.1 depth
    let (links, d) ← readLinks stop c.1.tokens c.1.depth
    return ((op, operand) :: links,
      ⟨d.1, by have h₁ := rest.2; have h₂ := c.2; have h₃ := d.2; omega⟩)
termination_by (ts.length, 0)
decreasing_by
  · have := rest.2; omega
  · have := rest.2; have := c.2; omega

/-- Reads a term with signs before it; a plus sign leaves no trace. -/
def readSigned (stop : Nat) (ts : List Lexeme) (depth : Nat) : Except Error (Term × Beyond ts) :=
  match ts with
  | ⟨_, _, .minus⟩ :: rest => do
    let depth ← descend stop rest depth
    let (term, c) ← readSigned stop rest depth
    return (.neg term, ⟨c.1.ascend 1, by have h := c.2; simp [Cursor.ascend]; omega⟩)
  | ⟨_, _, .plus⟩ :: rest => do
    let depth ← descend stop rest depth
    let (term, c) ← readSigned stop rest depth
    return (term, ⟨c.1.ascend 1, by have h := c.2; simp [Cursor.ascend]; omega⟩)
  | ts => do
    let (first, c) ← readPrimary stop ts depth
    let (term, d) ← readSuffixes stop first 0 c.1.tokens c.1.depth
    return (term, ⟨d.1, Nat.lt_of_le_of_lt d.2 c.2⟩)
termination_by (ts.length, 1)

/-- Reads the indices and methods after a term, `levels` deep already. -/
def readSuffixes (stop : Nat) (target : Term) (levels : Nat) (ts : List Lexeme) (depth : Nat) :
    Except Error (Term × AtLeast ts) :=
  match ts with
  | ⟨o, s, .leftBracket⟩ :: rest => do
    let depth ← descend stop (⟨o, s, .leftBracket⟩ :: rest) depth
    let (index, c) ← readTerm stop rest depth
    match hc : c.1.tokens with
    | ⟨_, _, .rightBracket⟩ :: more =>
      let (term, d) ← readSuffixes stop (.index target index) (levels + 1) more c.1.depth
      return (term, ⟨d.1, by have h₁ := c.2; have h₂ := d.2; rw [hc] at h₁; simp at *; omega⟩)
    | more => problemAt stop more (.expected .rightBracket)
  | ⟨o, s, .dot⟩ :: rest => do
    let depth ← descend stop (⟨o, s, .dot⟩ :: rest) depth
    match hr : rest with
    | ⟨_, _, .ident name⟩ :: ⟨_, _, .leftParen⟩ :: more =>
      let (args, c) ← readArgs stop more depth
      let (term, d) ←
        readSuffixes stop (.method target name args) (levels + 1) c.1.tokens c.1.depth
      return (term, ⟨d.1, by have h₁ := c.2; have h₂ := d.2; subst hr; simp at *; omega⟩)
    | ⟨_, _, .ident _⟩ :: more => problemAt stop more (.expected .leftParen)
    | rest => problemAt stop (rest.drop 1) .expectedMethod
  | ts => .ok (target, ⟨Cursor.ascend ⟨ts, depth⟩ levels, by simp [Cursor.ascend]⟩)
termination_by (ts.length, 0)
decreasing_by
  · exact Prod.Lex.left _ _ (by simp)
  · have h := c.2; rw [hc] at h; exact Prod.Lex.left _ _ (by simp at *; omega)
  · exact Prod.Lex.left _ _ (by simp; omega)
  · have := c.2; exact Prod.Lex.left _ _ (by simp; omega)

/-- Reads arguments after an opening parenthesis, through the closing one. -/
def readArgs (stop : Nat) (ts : List Lexeme) (depth : Nat) :
    Except Error (List Term × Beyond ts) :=
  match ts with
  | ⟨_, _, .rightParen⟩ :: rest => .ok ([], ⟨⟨rest, depth⟩, by simp⟩)
  | ts => readArgsFrom stop ts depth
termination_by (ts.length, 14)

/-- Reads at least one argument, through the closing parenthesis. -/
def readArgsFrom (stop : Nat) (ts : List Lexeme) (depth : Nat) :
    Except Error (List Term × Beyond ts) := do
  let (arg, c) ← readTerm stop ts depth
  match hc : c.1.tokens with
  | ⟨_, _, .rightParen⟩ :: rest =>
    return ([arg], ⟨⟨rest, c.1.depth⟩, by have h := c.2; rw [hc] at h; simp at *; omega⟩)
  | ⟨_, _, .comma⟩ :: rest =>
    let (args, d) ← readArgsFrom stop rest c.1.depth
    return (arg :: args, ⟨d.1, by have h₁ := c.2; have h₂ := d.2; rw [hc] at h₁; simp at *; omega⟩)
  | rest => problemAt stop rest (.expected .comma)
termination_by (ts.length, 13)
decreasing_by
  · exact Prod.Lex.right _ (by decide)
  · have h := c.2; rw [hc] at h; exact Prod.Lex.left _ _ (by simp at *; omega)

/-- Reads a literal, a name, a call or a term in parentheses. -/
def readPrimary (stop : Nat) (ts : List Lexeme) (depth : Nat) : Except Error (Term × Beyond ts) :=
  match ts with
  | [] => problemAt stop [] .unexpectedEnd
  | ⟨_, _, .int n⟩ :: rest => .ok (.literal (.int n), ⟨⟨rest, depth⟩, by simp⟩)
  | ⟨_, _, .float x⟩ :: rest => .ok (.literal (.float x), ⟨⟨rest, depth⟩, by simp⟩)
  | ⟨_, _, .str s⟩ :: rest => .ok (.literal (.str s), ⟨⟨rest, depth⟩, by simp⟩)
  | ⟨_, _, .true⟩ :: rest => .ok (.literal (.bool true), ⟨⟨rest, depth⟩, by simp⟩)
  | ⟨_, _, .false⟩ :: rest => .ok (.literal (.bool false), ⟨⟨rest, depth⟩, by simp⟩)
  | ⟨_, _, .ident name⟩ :: ⟨o, s, .leftParen⟩ :: rest =>
    if name.startsWith "$" then
      .ok (.name name, ⟨⟨⟨o, s, .leftParen⟩ :: rest, depth⟩, by simp⟩)
    else do
      let (args, c) ← readArgs stop rest depth
      return (.call name args, ⟨c.1, by have h := c.2; simp; omega⟩)
  | ⟨_, _, .ident name⟩ :: rest => .ok (.name name, ⟨⟨rest, depth⟩, by simp⟩)
  | ⟨_, _, .leftParen⟩ :: rest => do
    let (term, c) ← readTerm stop rest depth
    match hc : c.1.tokens with
    | ⟨_, _, .rightParen⟩ :: more =>
      return (term, ⟨⟨more, c.1.depth⟩, by have h := c.2; rw [hc] at h; simp at *; omega⟩)
    | more => problemAt stop more (.expected .rightParen)
  | ⟨offset, _, token⟩ :: _ => .error (.illFormed offset (.unexpected token))
termination_by (ts.length, 0)

end

/-- The term that all tokens together write; `stop` is the offset of the end of the source. -/
def parseTokens (stop : Nat) (ts : List Lexeme) : Except Error Term := do
  let (term, c) ← readTerm stop ts 0
  match c.1.tokens with
  | [] => return term
  | lexeme :: _ => .error (.illFormed lexeme.offset (.trailing lexeme.token))

end RuleSieve.Predicate
