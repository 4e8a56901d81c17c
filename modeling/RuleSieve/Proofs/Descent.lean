/-
  Reading terms in place.

  The readers of terms take what is left of the tokens and give back what is left after them.  The
  same can be done in place: the tokens stay where they are, an index says which one is next, a counter
  how deep the reader is, and what a reader goes down it has to go up again before it is done.  Such
  a reader fails where it should go up further than it is deep, and where an index or a depth has no
  room in 64 bits.  It is given a number of turns, and has no answer where its calls and loops go further
  into one another than that; where it has one, more turns do not change it (`run_extends`).

  It also writes down, whenever one of the readers is entered, which readers are active then.
-/
import RuleSieve.Proofs.ProblemPlace

namespace RuleSieve.Predicate

deriving instance BEq for Token

namespace Descent

/-- Is there more to the token than its kind? -/
def hasValue : Token → Bool
  | .int _ | .float _ | .str _ | .ident _ => true
  | _ => false

/-- Only where there is no more to a token than its kind is equality what the test for it says. -/
theorem beq_iff_eq_of_not_hasValue {token own : Token} (hown : hasValue own = false) :
    (token == own) = true ↔ token = own := by
  constructor
  · intro h
    cases own with
    | int | float | str | ident => cases hown
    | _ => cases token <;> first | rfl | cases h
  · rintro rfl
    cases token <;> first | rfl | cases hown

/-- Does the token begin an index or a method? -/
def beginsSuffix : Token → Bool
  | .leftBracket | .dot => true
  | _ => false

/-- Suffixes begin with a bracket or a dot. -/
theorem beginsSuffix_iff (token : Token) :
    beginsSuffix token = true ↔ token = .leftBracket ∨ token = .dot := by
  cases token <;> simp [beginsSuffix]

/-! ## Readers and their calls -/

/-- The readers that call one another. -/
inductive Reader where
  | whole
  | conjunction
  | negation
  | comparison
  | sum
  | product
  /-- Terms with signs before them. -/
  | signed
  /-- Primaries with the indices and methods after them. -/
  | suffixed
  | args
  | primary
  deriving Repr, DecidableEq

/-- What a reader gives back. -/
abbrev Reader.Yield : Reader → Type
  | .args => List Term
  | _ => Term

/-- The reader of a level. -/
def levelReader : Chain → Reader
  | .or => .whole
  | .and => .conjunction
  | .sum => .sum
  | .product => .product

/-- The reader of the operands of a level. -/
def operandReader : Chain → Reader
  | .or => .conjunction
  | .and => .negation
  | .sum => .product
  | .product => .signed

/-- A call of a reader, with the index and the depth at which it begins. -/
structure Call where
  reader : Reader
  index : Nat
  depth : Nat
  deriving Repr, DecidableEq

/-! ## States -/

/-- How far a reader is. -/
structure State where
  /-- The index of the next token. -/
  index : Nat
  depth : Nat
  /-- The active calls, the innermost first, at each time that a reader was entered. -/
  entered : List (List Call)

/-- The state some tokens further on. -/
def State.pass (s : State) (count : Nat) : State := { s with index := s.index + count }

/-- The state one level down. -/
def State.down (s : State) : State := { s with depth := s.depth + 1 }

/-- The state some levels up. -/
def State.up (s : State) (levels : Nat) : State := { s with depth := s.depth - levels }

/-- The state after a reader was entered. -/
def State.enter (s : State) (calls : List Call) : State := { s with entered := calls :: s.entered }

/-- Why a reader fails. -/
inductive Failure where
  /-- Something is wrong with the tokens. -/
  | problem (e : Error)
  /-- There are fewer levels to go up than the reader wants to. -/
  | underflow
  /-- There is no room for the next index or depth in 64 bits. -/
  | overflow

/-- What is done in place; nothing comes of it if it does not come to an end.  The state outlives
    a failure. -/
abbrev Action := ExceptT Failure (StateT State Option)

/-! ## Steps -/

section

variable (stop : Nat) (ts : List Lexeme)

/-- The next token. -/
def peek : Action (Option Token) := do return (ts[(← get).index]?).map (·.token)

/-- Passes over tokens. -/
def pass (count : Nat) : Action Unit := do
  if (← get).index + count < Word.count then modify (·.pass count) else throw .overflow

/-- Fails with a problem of the next token. -/
def fail {α : Type} (problem : SyntaxProblem) : Action α := do
  throw (.problem (.illFormed (offsetOf stop (ts.drop (← get).index)) problem))

/-- Passes over the next token, whatever it is. -/
def advance : Action (Option Token) := do
  let token ← peek ts
  if token.isSome then pass 1
  return token

/-- Passes over the next token if it is this one. -/
def eat (token : Token) : Action Bool := do
  if (← peek ts) == some token then
    pass 1
    return true
  else return false

/-- Passes over the next token, which has to be this one. -/
def expect (token : Token) : Action Unit := do
  if ← eat ts token then return () else fail stop ts (.expected token)

/-- Goes one level down. -/
def goDown : Action Unit := do
  if (← get).depth + 1 < Word.count then
    modify (·.down)
    if maxDepth < (← get).depth then fail stop ts .tooDeep
  else throw .overflow

/-- Goes some levels up. -/
def goUp (levels : Nat) : Action Unit := do
  if (← get).depth < levels then throw .underflow else modify (·.up levels)

/-- Begins a call, and gives back the calls that are active in it. -/
def enter (reader : Reader) (calls : List Call) : Action (List Call) := do
  let s ← get
  let calls := ⟨reader, s.index, s.depth⟩ :: calls
  set (s.enter calls)
  return calls

/-- Passes over a comparison operator, if one is next. -/
def operator : Action (Option CompareOp) := do
  match compareOp? (ts.drop (← get).index) with
  | some (op, _) =>
    pass op.tokens.length
    return some op
  | none => return none

/-- Goes one level down before an index or a method, and counts the level. -/
def suffixLevels (levels : Nat) : Action Nat := do
  if (← peek ts).any beginsSuffix then
    goDown stop ts
    return levels + 1
  else return levels

/-- Passes over the name of a method, which has to be next. -/
def methodName : Action String := do
  match ← advance ts with
  | some (.ident name) => return name
  | _ => fail stop ts .expectedMethod

/-- What has no turns left. -/
def never {α : Type} : Action α := ExceptT.mk fun _ => none

/-! ## The readers -/

mutual

/-- Reads a whole term. -/
def whole : (turns : Nat) → List Call → Action Term
  | 0, _ => never
  | turns + 1, calls => do
    let calls ← enter .whole calls
    goDown stop ts
    chain turns .or 1 calls

/-- Reads a term of a level below that of whole terms. -/
def ofLevel : (turns : Nat) → Chain → List Call → Action Term
  | 0, _, _ => never
  | turns + 1, level, calls => do
    let calls ← enter (levelReader level) calls
    chain turns level 0 calls

/-- Reads operands of a level and the operators between them. -/
def chain : (turns : Nat) → Chain → (levels : Nat) → List Call → Action Term
  | 0, _, _, _ => never
  | turns + 1, level, levels, calls => do
    let first ← operand turns level calls
    more turns level first levels calls

/-- Reads further operators and operands of a level; each pair goes one level further down. -/
def more : (turns : Nat) → Chain → (left : Term) → (levels : Nat) → List Call → Action Term
  | 0, _, _, _, _ => never
  | turns + 1, level, left, levels, calls => do
    match (← peek ts).bind level.build? with
    | some build =>
      pass 1
      goDown stop ts
      let right ← operand turns level calls
      more turns level (build left right) (levels + 1) calls
    | none =>
      goUp levels
      return left

/-- Reads one operand of a level. -/
def operand : (turns : Nat) → Chain → List Call → Action Term
  | 0, _, _ => never
  | turns + 1, .or, calls => ofLevel turns .and calls
  | turns + 1, .and, calls => negation turns calls
  | turns + 1, .sum, calls => ofLevel turns .product calls
  | turns + 1, .product, calls => signed turns calls

/-- Reads a comparison, or the negation of one. -/
def negation : (turns : Nat) → List Call → Action Term
  | 0, _ => never
  | turns + 1, calls => do
    let calls ← enter .negation calls
    if ← eat ts .not then
      goDown stop ts
      let term ← negation turns calls
      goUp 1
      return .not term
    else comparison turns calls

/-- Reads a sum, or a chain of comparisons between sums. -/
def comparison : (turns : Nat) → List Call → Action Term
  | 0, _ => never
  | turns + 1, calls => do
    let calls ← enter .comparison calls
    let first ← ofLevel turns .sum calls
    let links ← links turns calls
    return if links.isEmpty then first else .compare first links

/-- Reads further comparison operators and their operands. -/
def links : (turns : Nat) → List Call → Action (List (CompareOp × Term))
  | 0, _ => never
  | turns + 1, calls => do
    match ← operator ts with
    | some op =>
      let right ← ofLevel turns .sum calls
      let links ← links turns calls
      return (op, right) :: links
    | none => return []

/-- Reads a term with signs before it. -/
def signed : (turns : Nat) → List Call → Action Term
  | 0, _ => never
  | turns + 1, calls => do
    let calls ← enter .signed calls
    if ← eat ts .minus then
      goDown stop ts
      let term ← signed turns calls
      goUp 1
      return .neg term
    else if ← eat ts .plus then
      goDown stop ts
      let term ← signed turns calls
      goUp 1
      return term
    else suffixed turns calls

/-- Reads a primary with the indices and methods after it. -/
def suffixed : (turns : Nat) → List Call → Action Term
  | 0, _ => never
  | turns + 1, calls => do
    let calls ← enter .suffixed calls
    let first ← primary turns calls
    suffixes turns first 0 calls

/-- Reads the indices and methods after a term; each goes one level further down. -/
def suffixes : (turns : Nat) → (target : Term) → (levels : Nat) → List Call → Action Term
  | 0, _, _, _ => never
  | turns + 1, target, levels, calls => do
    let levels ← suffixLevels stop ts levels
    if ← eat ts .leftBracket then
      let index ← whole turns calls
      expect stop ts .rightBracket
      suffixes turns (.index target index) levels calls
    else if ← eat ts .dot then
      let name ← methodName stop ts
      expect stop ts .leftParen
      let args ← args turns calls
      suffixes turns (.method target name args) levels calls
    else
      goUp levels
      return target

/-- Reads arguments after an opening parenthesis, through the closing one. -/
def args : (turns : Nat) → List Call → Action (List Term)
  | 0, _ => never
  | turns + 1, calls => do
    let calls ← enter .args calls
    if ← eat ts .rightParen then return []
    else argsFrom turns calls

/-- Reads at least one argument, through the closing parenthesis. -/
def argsFrom : (turns : Nat) → List Call → Action (List Term)
  | 0, _ => never
  | turns + 1, calls => do
    let arg ← whole turns calls
    if ← eat ts .rightParen then return [arg]
    else
      expect stop ts .comma
      let args ← argsFrom turns calls
      return arg :: args

/-- Reads a literal, a name, a call or a term in parentheses. -/
def primary : (turns : Nat) → List Call → Action Term
  | 0, _ => never
  | turns + 1, calls => do
    let calls ← enter .primary calls
    let offset := offsetOf stop (ts.drop (← get).index)
    match ← advance ts with
    | none => throw (.problem (.illFormed offset .unexpectedEnd))
    | some (.ident name) =>
      if name.startsWith "$" then return .name name
      else if ← eat ts .leftParen then
        let args ← args turns calls
        return .call name args
      else return .name name
    | some .leftParen =>
      let term ← whole turns calls
      expect stop ts .rightParen
      return term
    | some token =>
      match token.literal? with
      | some value => return .literal value
      | none => throw (.problem (.illFormed offset (.unexpected token)))

end

/-- What a reader does with so many turns when it is called by the readers `calls`. -/
def run : (reader : Reader) → (turns : Nat) → List Call → Action reader.Yield
  | .whole => whole stop ts
  | .conjunction => (ofLevel stop ts · .and)
  | .negation => negation stop ts
  | .comparison => comparison stop ts
  | .sum => (ofLevel stop ts · .sum)
  | .product => (ofLevel stop ts · .product)
  | .signed => signed stop ts
  | .suffixed => suffixed stop ts
  | .args => args stop ts
  | .primary => primary stop ts

end

/-! ## What the steps do -/

/-- The tokens can be counted in 64 bits. -/
class Addressable (ts : List Lexeme) : Prop where
  length_lt : ts.length < Word.count

section

variable {stop : Nat} {ts us : List Lexeme} {α β : Type} {s s' : State}

/-- An action goes on with what was returned, in the state that was left. -/
theorem bind_of_ok {x : Action α} {f : α → Action β} {a : α} (h : x s = some (.ok a, s')) :
    (x >>= f) s = f a s' := by
  show StateT.bind x _ s = f a s'
  rw [StateT.bind, h]
  rfl

/-- An action that fails is not gone on with. -/
theorem bind_of_error {x : Action α} {f : α → Action β} {failure : Failure}
    (h : x s = some (.error failure, s')) : (x >>= f) s = some (.error failure, s') := by
  show StateT.bind x _ s = _
  rw [StateT.bind, h]
  rfl

/-- A problem is said of the place that the failing action left off at. -/
theorem bind_of_fail {x : Action α} {f : α → Action β} {problem : SyntaxProblem}
    (h : x s = fail stop ts problem s') : (x >>= f) s =
      some (.error (.problem (.illFormed (offsetOf stop (ts.drop s'.index)) problem)), s') :=
  bind_of_error h

theorem get_bind (f : State → Action β) (s : State) : (get >>= f) s = f s s := rfl

/-- Looking at the next token changes nothing. -/
theorem peek_bind (f : Option Token → Action β) (s : State) :
    (peek ts >>= f) s = f (ts[s.index]?.map (·.token)) s := rfl

/-- The token at the index is the first one of those that are left. -/
theorem next_of_cons {lexeme : Lexeme} (hus : ts.drop s.index = lexeme :: us) :
    ts[s.index]?.map (·.token) = some lexeme.token := by
  rw [← List.head?_drop, hus]
  rfl

/-- Tokens are passed if there is room for the index behind them. -/
theorem pass_of_lt {count : Nat} (h : s.index + count < Word.count) :
    pass count s = some (.ok (), s.pass count) := by
  show (if s.index + count < Word.count then modify (·.pass count) else throw .overflow
    : Action Unit) s = _
  rw [if_pos h]
  rfl

/-- There is room for the index after each of the tokens. -/
theorem pass_of_le [Addressable ts] {count : Nat} (h : s.index + count ≤ ts.length) :
    pass count s = some (.ok (), s.pass count) :=
  pass_of_lt (Nat.lt_of_le_of_lt h Addressable.length_lt)

/-- If any token is left, the index is within the tokens. -/
theorem index_lt_of_cons {lexeme : Lexeme} (hus : ts.drop s.index = lexeme :: us) :
    s.index < ts.length := by
  have hlength : (ts.drop s.index).length = us.length + 1 := by rw [hus, List.length_cons]
  rw [List.length_drop] at hlength
  omega

/-- Taking the next token moves the index behind it; there is room for that, as there is for all
    tokens. -/
theorem advance_of_cons [Addressable ts] {lexeme : Lexeme}
    (hus : ts.drop s.index = lexeme :: us) :
    advance ts s = some (.ok (some lexeme.token), s.pass 1) := by
  rw [advance, peek_bind, next_of_cons hus]
  show (pass 1 >>= fun _ => pure (some lexeme.token)) s = _
  rw [bind_of_ok (pass_of_le (index_lt_of_cons hus))]
  rfl

/-- At the end there is no token to take, and the index stays. -/
theorem advance_of_nil (hus : ts.drop s.index = []) : advance ts s = some (.ok none, s) := by
  rw [advance, peek_bind, ← List.head?_drop, hus]
  rfl

/-- A token that is wanted is passed. -/
theorem eat_of_eq [Addressable ts] {lexeme : Lexeme} {token : Token} (htoken : hasValue token = false)
    (hus : ts.drop s.index = lexeme :: us) (hnext : lexeme.token = token) :
    eat ts token s = some (.ok true, s.pass 1) := by
  rw [eat, peek_bind, next_of_cons hus, Option.some_beq_some,
    if_pos ((beq_iff_eq_of_not_hasValue htoken).2 hnext),
    bind_of_ok (pass_of_le (index_lt_of_cons hus))]
  rfl

/-- A token that is not the wanted one is left. -/
theorem eat_of_ne {token : Token} (htoken : hasValue token = false)
    (hnext : ∀ lexeme ∈ (ts.drop s.index).head?, lexeme.token ≠ token) :
    eat ts token s = some (.ok false, s) := by
  rw [eat, peek_bind, if_neg]
  · rfl
  · rw [List.head?_drop] at hnext
    cases hhead : ts[s.index]? with
    | none => simp
    | some lexeme =>
      intro h
      exact hnext lexeme hhead ((beq_iff_eq_of_not_hasValue htoken).1 h)

/-- Going down counts the level first and asks for the limit afterwards. -/
theorem goDown_of_room (hroom : s.depth + 1 < Word.count) : goDown stop ts s =
    (if maxDepth < s.depth + 1 then fail stop ts .tooDeep else pure () : Action Unit) s.down := by
  rw [goDown, get_bind, if_pos hroom]
  rfl

/-- There is a level left below the limit. -/
theorem goDown_of_lt (hroom : s.depth + 1 < Word.count) (hdepth : s.depth < maxDepth) :
    goDown stop ts s = some (.ok (), s.down) := by
  rw [goDown_of_room hroom, if_neg (Nat.not_lt.2 hdepth)]
  rfl

/-- At the limit going down fails, with the level counted. -/
theorem goDown_of_le (hroom : s.depth + 1 < Word.count) (hdepth : maxDepth ≤ s.depth) :
    goDown stop ts s = fail stop ts .tooDeep s.down := by
  rw [goDown_of_room hroom, if_pos (Nat.lt_succ_of_le hdepth)]

/-- Levels that were counted can be given back. -/
theorem goUp_of_le {levels : Nat} (hlevels : levels ≤ s.depth) :
    goUp levels s = some (.ok (), s.up levels) := by
  show (if s.depth < levels then throw .underflow else modify (·.up levels) : Action Unit) s = _
  rw [if_neg (Nat.not_lt.2 hlevels)]
  rfl

/-- Where no comparison operator stands, no token is passed. -/
theorem operator_of_none (hop : compareOp? (ts.drop s.index) = none) :
    operator ts s = some (.ok none, s) := by
  rw [operator, get_bind, hop]
  rfl

/-- All tokens of a comparison operator are passed. -/
theorem operator_of_some [Addressable ts] {op : CompareOp}
    {rest : { rest : List Lexeme // rest.length < (ts.drop s.index).length }}
    (hop : compareOp? (ts.drop s.index) = some (op, rest))
    (hend : s.index + op.tokens.length ≤ ts.length) :
    operator ts s = some (.ok (some op), s.pass op.tokens.length) := by
  rw [operator, get_bind, hop]
  show (pass op.tokens.length >>= fun _ => pure (some op)) s = _
  rw [bind_of_ok (pass_of_le hend)]
  rfl

/-- Where no suffix begins, no more levels are held. -/
theorem suffixLevels_of_none (levels : Nat)
    (hnext : ∀ lexeme ∈ (ts.drop s.index).head?,
      lexeme.token ≠ .leftBracket ∧ lexeme.token ≠ .dot) :
    suffixLevels stop ts levels s = some (.ok levels, s) := by
  rw [suffixLevels, peek_bind, if_neg]
  · rfl
  · rw [List.head?_drop] at hnext
    cases hhead : ts[s.index]? with
    | none => simp
    | some lexeme =>
      intro hbegins
      have hne := hnext lexeme hhead
      exact ((beginsSuffix_iff _).1 hbegins).elim hne.1 hne.2

/-- Before an index or a method, one level down is the first thing that is done. -/
theorem suffixLevels_bind {lexeme : Lexeme} (hus : ts.drop s.index = lexeme :: us)
    (hnext : lexeme.token = .leftBracket ∨ lexeme.token = .dot) (levels : Nat)
    (f : Nat → Action β) :
    (suffixLevels stop ts levels >>= f) s = (goDown stop ts >>= fun _ => f (levels + 1)) s := by
  rw [suffixLevels, bind_assoc, peek_bind, next_of_cons hus, Option.any_some,
    if_pos ((beginsSuffix_iff _).2 hnext), bind_assoc]
  simp only [pure_bind]

/-- The name of a method is passed. -/
theorem methodName_of_ident [Addressable ts] {lexeme : Lexeme} {name : String}
    (hus : ts.drop s.index = lexeme :: us) (hname : lexeme.token = .ident name) :
    methodName stop ts s = some (.ok name, s.pass 1) := by
  rw [methodName, bind_of_ok (advance_of_cons hus), hname]
  rfl

/-- A token that is no name is passed before the problem is reported, so that it is said of the
    token after it. -/
theorem methodName_of_ne [Addressable ts] {lexeme : Lexeme} (hus : ts.drop s.index = lexeme :: us)
    (hname : ∀ name, lexeme.token ≠ .ident name) :
    methodName stop ts s = fail stop ts .expectedMethod (s.pass 1) := by
  rw [methodName, bind_of_ok (advance_of_cons hus)]
  cases htoken : lexeme.token with
  | ident name => exact absurd htoken (hname name)
  | _ => rfl

/-- At the end there is no name to pass. -/
theorem methodName_of_nil (hus : ts.drop s.index = []) :
    methodName stop ts s = fail stop ts .expectedMethod s := by
  rw [methodName, bind_of_ok (advance_of_nil hus)]

end

/-! ## More turns -/

/-- Where the first has an answer, the second has the same one. -/
def Extends {α : Type} (x y : Action α) : Prop := ∀ s r, x s = some r → y s = some r

namespace Extends

variable {α β : Type}

theorem refl (x : Action α) : Extends x x := fun _ _ h => h

theorem never (y : Action α) : Extends never y := fun _ _ h => nomatch h

/-- Two actions in a row extend two others, if each of them extends its counterpart. -/
theorem bind {x y : Action α} {f g : α → Action β} (h : Extends x y)
    (hf : ∀ a, Extends (f a) (g a)) : Extends (x >>= f) (y >>= g) := by
  intro s r hr
  cases hx : x s with
  | none =>
    have hnone : (x >>= f) s = none := by
      show StateT.bind x _ s = none
      rw [StateT.bind, hx]
      rfl
    exact nomatch hnone.symm.trans hr
  | some result =>
    have hy := h s result hx
    obtain ⟨outcome, s'⟩ := result
    cases outcome with
    | ok a =>
      rw [bind_of_ok hx] at hr
      rw [bind_of_ok hy]
      exact hf a s' r hr
    | error failure =>
      rw [bind_of_error hx] at hr
      rw [bind_of_error hy]
      exact hr

/-- What comes after the same first step. -/
theorem after {x : Action α} {f g : α → Action β} (hf : ∀ a, Extends (f a) (g a)) :
    Extends (x >>= f) (x >>= g) := (refl x).bind hf

theorem ite {c : Prop} [Decidable c] {x x' y y' : Action α} (h : Extends x x') (h' : Extends y y') :
    Extends (if c then x else y) (if c then x' else y') := by
  split
  · exact h
  · exact h'

end Extends

/-- With `turns'` turns all readers and their loops do what they do with `turns`, if that comes to
    something. -/
structure Extended (stop : Nat) (ts : List Lexeme) (turns turns' : Nat) : Prop where
  whole : ∀ calls, Extends (whole stop ts turns calls) (whole stop ts turns' calls)
  ofLevel : ∀ level calls,
    Extends (ofLevel stop ts turns level calls) (ofLevel stop ts turns' level calls)
  chain : ∀ level levels calls,
    Extends (chain stop ts turns level levels calls) (chain stop ts turns' level levels calls)
  more : ∀ level left levels calls,
    Extends (more stop ts turns level left levels calls) (more stop ts turns' level left levels calls)
  operand : ∀ level calls,
    Extends (operand stop ts turns level calls) (operand stop ts turns' level calls)
  negation : ∀ calls, Extends (negation stop ts turns calls) (negation stop ts turns' calls)
  comparison : ∀ calls, Extends (comparison stop ts turns calls) (comparison stop ts turns' calls)
  links : ∀ calls, Extends (links stop ts turns calls) (links stop ts turns' calls)
  signed : ∀ calls, Extends (signed stop ts turns calls) (signed stop ts turns' calls)
  suffixed : ∀ calls, Extends (suffixed stop ts turns calls) (suffixed stop ts turns' calls)
  suffixes : ∀ target levels calls,
    Extends (suffixes stop ts turns target levels calls) (suffixes stop ts turns' target levels calls)
  args : ∀ calls, Extends (args stop ts turns calls) (args stop ts turns' calls)
  argsFrom : ∀ calls, Extends (argsFrom stop ts turns calls) (argsFrom stop ts turns' calls)
  primary : ∀ calls, Extends (primary stop ts turns calls) (primary stop ts turns' calls)

theorem extended_zero (stop : Nat) (ts : List Lexeme) (turns : Nat) : Extended stop ts 0 turns := by
  constructor <;> intros <;> exact .never _

/-- If all readers give the same with more turns, they do so with one turn more on both sides. -/
theorem Extended.step {stop : Nat} {ts : List Lexeme} {turns turns' : Nat}
    (h : Extended stop ts turns turns') : Extended stop ts (turns + 1) (turns' + 1) where
  whole calls := by
    rw [Descent.whole, Descent.whole]
    exact .after fun calls => .after fun _ => h.chain _ _ _
  ofLevel level calls := by
    rw [Descent.ofLevel, Descent.ofLevel]
    exact .after fun calls => h.chain _ _ _
  chain level levels calls := by
    rw [Descent.chain, Descent.chain]
    exact (h.operand _ _).bind fun first => h.more _ _ _ _
  more level left levels calls := by
    rw [Descent.more, Descent.more]
    refine .after fun token => ?_
    cases token.bind level.build? with
    | some build =>
      exact .after fun _ => .after fun _ => (h.operand _ _).bind fun right => h.more _ _ _ _
    | none => exact .refl _
  operand level calls := by
    cases level with
    | or | sum =>
      rw [Descent.operand, Descent.operand]
      exact h.ofLevel _ _
    | and =>
      rw [Descent.operand, Descent.operand]
      exact h.negation _
    | product =>
      rw [Descent.operand, Descent.operand]
      exact h.signed _
  negation calls := by
    rw [Descent.negation, Descent.negation]
    exact .after fun calls => .after fun found =>
      .ite (.after fun _ => (h.negation _).bind fun term => .refl _) (h.comparison _)
  comparison calls := by
    rw [Descent.comparison, Descent.comparison]
    exact .after fun calls => (h.ofLevel _ _).bind fun first => (h.links _).bind fun links => .refl _
  links calls := by
    rw [Descent.links, Descent.links]
    refine .after fun op => ?_
    cases op with
    | some op => exact (h.ofLevel _ _).bind fun right => (h.links _).bind fun links => .refl _
    | none => exact .refl _
  signed calls := by
    rw [Descent.signed, Descent.signed]
    have hlower (calls : List Call) (build : Term → Term) :
        Extends (goDown stop ts >>= fun _ => Descent.signed stop ts turns calls >>= fun term =>
          goUp 1 >>= fun _ => pure (build term))
        (goDown stop ts >>= fun _ => Descent.signed stop ts turns' calls >>= fun term =>
          goUp 1 >>= fun _ => pure (build term)) :=
      .after fun _ => (h.signed _).bind fun term => .refl _
    exact .after fun calls => .after fun minus => .ite (hlower calls .neg)
      (.after fun plus => .ite (hlower calls id) (h.suffixed _))
  suffixed calls := by
    rw [Descent.suffixed, Descent.suffixed]
    exact .after fun calls => (h.primary _).bind fun first => h.suffixes _ _ _
  suffixes target levels calls := by
    rw [Descent.suffixes, Descent.suffixes]
    refine .after fun levels => .after fun bracket => .ite ?_ (.after fun dot => .ite ?_ (.refl _))
    · exact (h.whole _).bind fun index => .after fun _ => h.suffixes _ _ _
    · exact .after fun name => .after fun _ => (h.args _).bind fun args => h.suffixes _ _ _
  args calls := by
    rw [Descent.args, Descent.args]
    exact .after fun calls => .after fun closed => .ite (.refl _) (h.argsFrom _)
  argsFrom calls := by
    rw [Descent.argsFrom, Descent.argsFrom]
    exact (h.whole _).bind fun arg => .after fun closed => .ite (.refl _)
      (.after fun _ => (h.argsFrom _).bind fun args => .refl _)
  primary calls := by
    rw [Descent.primary, Descent.primary]
    refine .after fun calls => .after fun s => .after fun token => ?_
    cases token with
    | none => exact .refl _
    | some token =>
      cases token with
      | ident name =>
        exact .ite (.refl _)
          (.after fun paren => .ite ((h.args _).bind fun args => .refl _) (.refl _))
      | leftParen => exact (h.whole _).bind fun term => .refl _
      | _ => exact .refl _

/-- More turns never change an answer that there is. -/
theorem extended (stop : Nat) (ts : List Lexeme) {turns turns' : Nat} (h : turns ≤ turns') :
    Extended stop ts turns turns' := by
  induction turns generalizing turns' with
  | zero => exact extended_zero stop ts turns'
  | succ turns ih =>
    obtain ⟨more, rfl⟩ := Nat.exists_eq_add_of_le' (Nat.le_trans (Nat.le_add_left 1 turns) h)
    exact (ih (Nat.le_of_succ_le_succ h)).step

/-- A reader that has an answer has the same one with more turns. -/
theorem run_extends (stop : Nat) (ts : List Lexeme) (reader : Reader) {turns turns' : Nat}
    (h : turns ≤ turns') (calls : List Call) :
    Extends (run stop ts reader turns calls) (run stop ts reader turns' calls) := by
  have hextended := extended stop ts h
  cases reader with
  | whole => exact hextended.whole calls
  | conjunction => exact hextended.ofLevel .and calls
  | negation => exact hextended.negation calls
  | comparison => exact hextended.comparison calls
  | sum => exact hextended.ofLevel .sum calls
  | product => exact hextended.ofLevel .product calls
  | signed => exact hextended.signed calls
  | suffixed => exact hextended.suffixed calls
  | args => exact hextended.args calls
  | primary => exact hextended.primary calls

end Descent

end RuleSieve.Predicate
