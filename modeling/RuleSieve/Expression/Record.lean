/-
  The stored form of expressions.

  In a file every node is a record of the same four fields, of which the operator decides which ones
  may be there.
-/
import RuleSieve.Expression.Basic

namespace RuleSieve

/-- A stored node.  No parts at all is not the same as an empty list of parts. -/
inductive ExpressionRecord where
  | node (operator : String) (patternId : Option String) (operand : Option Operand)
      (parts : Option (List ExpressionRecord))
  deriving Repr

namespace Expression

/-- The expression of a node whose parts are expressions already. -/
def ofNode (operator : String) (patternId : Option String) (operand : Option Operand)
    (parts : Option (List Expression)) : Except Fault Expression :=
  match Operator.ofName? operator with
  | none => .error (.unknownOperator operator)
  | some (.leaf op) =>
    if parts.isSome then .error (.schema (.leafWithParts op))
    else .ok (.leaf ⟨op, patternId, operand⟩)
  | some (.group op) =>
    if patternId.isSome || operand.isSome then .error (.schema (.groupWithOperand op))
    else ofParts op (parts.getD [])

mutual

/-- The expression that a record stores.  Parts are looked at before the node itself. -/
def ofRecord : ExpressionRecord → Except Fault Expression
  | .node operator patternId operand none => ofNode operator patternId operand none
  | .node operator patternId operand (some parts) => do
    ofNode operator patternId operand (some (← ofRecords parts))

/-- The expressions that records store. -/
def ofRecords : List ExpressionRecord → Except Fault (List Expression)
  | [] => .ok []
  | record :: records => do
    let e ← ofRecord record
    return e :: (← ofRecords records)

end

mutual

/-- The record of an expression. -/
def toRecord : Expression → ExpressionRecord
  | .leaf l => .node l.operator.tag l.patternId l.operand none
  | .group op first rest => .node op.tag none none (some (first.toRecord :: toRecords rest))

/-- The records of several expressions. -/
def toRecords : List Expression → List ExpressionRecord
  | [] => []
  | e :: es => e.toRecord :: toRecords es

end

end Expression

end RuleSieve
