/-
  The stored form of rules.
-/
import RuleSieve.Rule
import RuleSieve.Stored.Expression

namespace RuleSieve

open Document (text nat list dict choice record)

/-- Reads a severity. -/
def Severity.decode : Decoder Severity := choice Severity.storedNames

/-- Reads a mode. -/
def RuleMode.decode : Decoder RuleMode := choice RuleMode.names

/-- The record of a fix. -/
def FixRegex.toJson (fix : FixRegex) : Json :=
  .record
    [("regex", some (.text fix.regex)), ("replacement", some (.text fix.replacement)),
     ("count", fix.count.map .nat)]

/-- Reads a fix. -/
def FixRegex.decode : Decoder FixRegex :=
  record [["regex"], ["replacement"], ["count"]] fun fs =>
    FixRegex.mk
      <$> fs.required "regex" text
      <*> fs.required "replacement" text
      <*> fs.optional "count" (nat 64)

/-- The record of a rule. -/
def Rule.toJson (rule : Rule) : Json :=
  .record
    [("id", some (.text rule.id)), ("message", some (.text rule.message)),
     ("severity", some (.text rule.severity.name)), ("mode", some (.text rule.mode.name)),
     ("expression", rule.expression.map Expression.toJson), ("fix", rule.fix.map .text),
     ("fix_regex", rule.fixRegex.map FixRegex.toJson),
     ("metadata", some (.dict (fun value => value) rule.metadata)),
     ("languages", some (.texts rule.languages))]

/-- Reads a rule. -/
def Rule.decode : Decoder Rule :=
  record
    [["id"], ["message"], ["severity"], ["mode"], ["expression"], ["fix"], ["fix_regex"], ["metadata"],
     ["languages"]] fun fs =>
    Rule.mk
      <$> fs.required "id" text
      <*> fs.required "message" text
      <*> fs.defaulted "severity" Severity.decode .usual
      <*> fs.defaulted "mode" RuleMode.decode .search
      <*> fs.optional "expression" Expression.decode
      <*> fs.optional "fix" text
      <*> fs.optional "fix_regex" FixRegex.decode
      <*> fs.defaulted "metadata" (dict Document.value) []
      <*> fs.defaulted "languages" (list text) []

/-- The record of a collection of rules. -/
def RuleFile.toJson (file : RuleFile) : Json :=
  .record
    [("version", some (file.version.elim .null .text)),
     ("rules", some (.list (file.rules.map Rule.toJson)))]

/-- Reads a collection of rules. -/
def RuleFile.decode : Decoder RuleFile :=
  record [["version"], ["rules"]] fun fs =>
    RuleFile.mk <$> fs.optional "version" text <*> fs.required "rules" (list Rule.decode)

end RuleSieve
