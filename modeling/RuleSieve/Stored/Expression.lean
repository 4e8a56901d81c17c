/-
  The stored form of expressions.
-/
import RuleSieve.Document
import RuleSieve.Expression.Record

namespace RuleSieve

open Document (text nat bool list record)

/-! ## Operands -/

/-- The record of a condition. -/
def MetavariableCondition.toJson (c : MetavariableCondition) : Json :=
  .record
    [("metavariable", some (.text c.metavariable)), ("regex", c.regex.map .text),
     ("comparison", c.comparison.map .text), ("strip", c.strip.map .bool), ("base", c.base.map .nat)]

/-- Reads a condition. -/
def MetavariableCondition.decode : Decoder MetavariableCondition :=
  record [["metavariable"], ["regex"], ["comparison"], ["strip"], ["base"]] fun fs =>
    MetavariableCondition.mk
      <$> fs.required "metavariable" text
      <*> fs.optional "regex" text
      <*> fs.optional "comparison" text
      <*> fs.optional "strip" bool
      <*> fs.optional "base" (nat 32)

/-- The stored form of an operand. -/
def Operand.toJson : Operand → Json
  | .text s => .text s
  | .record condition => condition.toJson

/-- Reads an operand.  Its leaves mean what they mean where no kind is wanted, so that a number is no
    text here. -/
def Operand.decode : Decoder Operand := fun d => do
  match ← Document.resolve d with
  | .leaf (.text s) => return .text s
  | json => return .record (← MetavariableCondition.decode (.ofJson json))

/-! ## Expressions -/

mutual

/-- The stored form of a node. -/
def ExpressionRecord.toJson : ExpressionRecord → Json
  | .node operator patternId operand parts =>
    .record
      [("operator", some (.text operator)), ("pattern_id", patternId.map .text),
       ("operand", operand.map Operand.toJson), ("children", partsToJson parts)]

/-- The stored form of the parts of a node. -/
def partsToJson : Option (List ExpressionRecord) → Option Json
  | none => none
  | some parts => some (.list (recordsToJson parts))

/-- The stored forms of several nodes. -/
def recordsToJson : List ExpressionRecord → List Json
  | [] => []
  | part :: parts => part.toJson :: recordsToJson parts

end

/-- The stored form of an expression. -/
def Expression.toJson (e : Expression) : Json := e.toRecord.toJson

/-- Reads an expression of at most `depth` levels. -/
def Expression.decodeWithin : (depth : Nat) → Decoder Expression
  | 0 => fun _ => .error .mismatch
  | depth + 1 => fun d => do
    let node ← record [["operator"], ["pattern_id"], ["operand"], ["children"]] (fun fs =>
      Expression.ofNode
        <$> fs.required "operator" text
        <*> fs.optional "pattern_id" text
        <*> fs.optional "operand" Operand.decode
        <*> fs.optional "children" (list (decodeWithin depth))) d
    node.mapError .fault

/-- Reads an expression. -/
def Expression.decode : Decoder Expression := fun d => decodeWithin d.depth d

end RuleSieve
