/-
  The value of a term in a scope, and predicates as a whole.
-/
import RuleSieve.Predicate.Parser
import RuleSieve.Predicate.Function

namespace RuleSieve.Predicate

mutual

/-- The value of a term.  Operands are evaluated from the left, and only as far as they matter. -/
def Term.eval (scope : Scope) : Term → Except Error Value
  | .literal value => .ok value
  | .name name =>
    match Dict.find? name scope with
    | some value => .ok value
    | none => .error (.unbound name)
  | .neg operand => do negate (← operand.eval scope)
  | .not operand => do return .bool !(← operand.eval scope).truthy
  | .and left right => do
    let value ← left.eval scope
    if value.truthy then right.eval scope else return value
  | .or left right => do
    let value ← left.eval scope
    if value.truthy then return value else right.eval scope
  | .arith op left right => do
    let a ← left.eval scope
    let b ← right.eval scope
    arith op a b
  | .compare first links => do evalLinks scope (← first.eval scope) links
  | .index target index => do
    let a ← target.eval scope
    let b ← index.eval scope
    element a b
  | .call function args => do call function (← evalArgs scope args)
  | .method receiver name args => do
    let value ← receiver.eval scope
    callMethod value name (← evalArgs scope args)

/-- Do all comparisons of a chain hold?  The first one that does not ends it. -/
def evalLinks (scope : Scope) (left : Value) : List (CompareOp × Term) → Except Error Value
  | [] => .ok (.bool true)
  | (op, operand) :: links => do
    let right ← operand.eval scope
    if ← compareBy op left right then evalLinks scope right links else return .bool false

/-- The values of arguments. -/
def evalArgs (scope : Scope) : List Term → Except Error (List Value)
  | [] => .ok []
  | arg :: args => do
    let value ← arg.eval scope
    return value :: (← evalArgs scope args)

end

end RuleSieve.Predicate

namespace RuleSieve

/-- A predicate: its source as it was given, and the term that the source writes. -/
structure Predicate where
  source : String
  term : Predicate.Term
  deriving Repr

namespace Predicate

/-- The number of bytes of a text. -/
def byteLength : List Char → Nat
  | [] => 0
  | c :: cs => c.utf8Size + byteLength cs

/-- Reads a predicate.  Blanks around it do not count, and offsets are taken without them. -/
def parse (source : String) : Except Error Predicate := do
  let trimmed := Text.trim source.toList
  let tokens ← lexemes trimmed
  return ⟨source, ← parseTokens (byteLength trimmed) tokens⟩

/-- The value of a predicate. -/
def evaluate (p : Predicate) (scope : Scope) : Except Error Value := p.term.eval scope

end Predicate

end RuleSieve
