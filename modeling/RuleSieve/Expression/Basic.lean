/-
  Rule expressions.

  An expression is a tree.  A leaf judges spans by the matches of one pattern or by what metavariables
  are bound to; a group combines its parts, of which it always has at least one.
-/
import RuleSieve.Fault

namespace RuleSieve

/-! ## Leaves -/

/-- What a metavariable must satisfy. -/
structure MetavariableCondition where
  metavariable : String
  regex : Option String
  comparison : Option String
  /-- Are quotes around the bound text left out? -/
  strip : Option Bool
  /-- The base in which the bound text writes an integer. -/
  base : Option Nat
  deriving Repr, DecidableEq

/-- What a leaf carries beside its pattern. -/
inductive Operand where
  | text (text : String)
  | record (condition : MetavariableCondition)
  deriving Repr, DecidableEq

/-- A leaf of an expression. -/
structure Leaf where
  operator : LeafOperator
  patternId : Option String
  operand : Option Operand
  deriving Repr, DecidableEq

namespace Leaf

/-- The operand as a text. -/
def textOperand (leaf : Leaf) : Except Fault String :=
  match leaf.operand with
  | some (.text text) => .ok text
  | some (.record _) => .error (.schema (.wantsText leaf.operator))
  | none => .error (.schema (.wantsOperand leaf.operator))

/-- The operand as a record. -/
def recordOperand (leaf : Leaf) : Except Fault MetavariableCondition :=
  match leaf.operand with
  | some (.record condition) => .ok condition
  | some (.text _) => .error (.schema (.wantsRecord leaf.operator))
  | none => .error (.schema (.wantsOperand leaf.operator))

end Leaf

/-! ## Expressions -/

/-- A rule expression; a group has a first part and the rest of them. -/
inductive Expression where
  | leaf (leaf : Leaf)
  | group (op : GroupOperator) (first : Expression) (rest : List Expression)
  deriving Repr

/-- One node of an expression as it stands in a listing. -/
structure ExpressionNode where
  operator : Operator
  patternId : Option String
  operand : Option Operand
  depth : Nat
  deriving Repr

namespace Expression

/-- The group of some parts. -/
def ofParts (op : GroupOperator) : List Expression → Except Fault Expression
  | [] => .error (.schema (.noParts op))
  | first :: rest => .ok (.group op first rest)

/-- The operator at the root. -/
def operator : Expression → Operator
  | .leaf l => .leaf l.operator
  | .group op _ _ => .group op

/-- The pattern at the root; groups have none. -/
def patternId : Expression → Option String
  | .leaf l => l.patternId
  | .group .. => none

mutual

/-- The nodes in order, a group before its parts, with their depth. -/
def nodesFrom (depth : Nat) : Expression → List ExpressionNode
  | .leaf l => [⟨.leaf l.operator, l.patternId, l.operand, depth⟩]
  | .group op first rest =>
    ⟨.group op, none, none, depth⟩ ::
      (first.nodesFrom (depth + 1) ++ nodesOfParts (depth + 1) rest)

/-- The nodes of several expressions, one after the other. -/
def nodesOfParts (depth : Nat) : List Expression → List ExpressionNode
  | [] => []
  | part :: parts => part.nodesFrom depth ++ nodesOfParts depth parts

end

/-- The nodes in order, a group before its parts. -/
def nodes (e : Expression) : List ExpressionNode := e.nodesFrom 0

/-- The patterns that leaves name, in order. -/
def patternIds (e : Expression) : List String := distinctNames (e.nodes.filterMap (·.patternId))

/-- Does a leaf run a predicate? -/
def usesPredicates (e : Expression) : Bool :=
  e.nodes.any fun node => node.operator == .leaf .patternWhere

end Expression

end RuleSieve
