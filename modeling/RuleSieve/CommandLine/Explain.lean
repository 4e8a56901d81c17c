/-
  Showing a rule and the tree of its expression.
-/
import RuleSieve.Json.Printer
import RuleSieve.Output.Paint
import RuleSieve.Rule

namespace RuleSieve.CommandLine

/-- The colour of a severity. -/
def severityPaint : Severity → Paint
  | .error => .red
  | .warning => .yellow
  | .info => .blue

/-- A line with a name and a value. -/
def entry (color : Bool) (name value : String) : String :=
  "  " ++ Paint.when color .bold name ++ ": " ++ value ++ "\n"

/-- What a node shows of its operand. -/
def operandText : Operand → String
  | .text text => s!" \x60{text}\x60"
  | .record condition =>
    s!" {condition.metavariable}"
      ++ condition.regex.elim "" (fun regex => s!" =~ /{regex}/")
      ++ condition.comparison.elim "" fun comparison => s!" \x60{comparison}\x60"

/-- The line of a node, further to the right the deeper it is. -/
def nodeLine (color : Bool) (node : ExpressionNode) : String :=
  let name := node.operator.displayName
  let shown := match node.operator with
    | .leaf _ => name
    | .group _ => Paint.when color .bold name
  String.ofList (List.replicate (2 * (node.depth + 2)) ' ') ++ shown
    ++ node.patternId.elim "" (fun id => " " ++ Paint.when color .cyan id)
    ++ node.operand.elim "" operandText ++ "\n"

/-- A rule and the tree of its expression. -/
def explain (color : Bool) (rule : Rule) : String :=
  let heading (text : String) : String := "\n  " ++ Paint.when color .bold text ++ "\n"
  Paint.when color .bold "Rule Details" ++ "\n\n"
    ++ entry color "ID" (Paint.when color .cyan rule.id)
    ++ entry color "Severity" (Paint.when color (severityPaint rule.severity) rule.severity.name)
    ++ entry color "Mode" rule.mode.name
    ++ entry color "Message" rule.message
    ++ (if rule.languages.isEmpty then ""
        else entry color "Languages" (String.intercalate ", " rule.languages))
    ++ rule.fix.elim "" (fun fix => entry color "Fix" (Paint.when color .green fix))
    ++ (if rule.needsExec then
          "  " ++ Paint.when color .yellow "Needs --allow-exec (uses pattern-where)" ++ "\n"
        else "")
    ++ rule.expression.elim "" (fun e =>
        heading "Expression" ++ String.join (e.nodes.map (nodeLine color)))
    ++ (if rule.metadata.isEmpty then ""
        else
          heading "Metadata"
            ++ String.join (rule.metadata.map fun (key, value) => s!"    {key}: {value.print}\n"))

end RuleSieve.CommandLine
