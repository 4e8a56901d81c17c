/-
  The stored form of spans and matches.
-/
import RuleSieve.Document
import RuleSieve.Match

namespace RuleSieve

open Document (nat list dict record)

/-! ## Spans -/

/-- The record of a span. -/
def Span.toJson (s : Span) : Json :=
  .record [("start", some (.nat s.start)), ("end", some (.nat s.stop)), ("vars", some (.texts s.vars))]

/-- Reads a span. -/
def Span.decode : Decoder Span :=
  record [["start"], ["end"], ["vars"]] fun fs =>
    (fun start stop vars => ⟨start, stop, nameSet vars⟩)
      <$> fs.required "start" (nat 64)
      <*> fs.required "end" (nat 64)
      <*> fs.defaulted "vars" (list Document.text) []

/-- The list of some spans. -/
def Span.listToJson (spans : List Span) : Json := .list (spans.map Span.toJson)

/-! ## Bindings -/

/-- The record of a binding. -/
def Binding.toJson (b : Binding) : Json :=
  .record
    [("abstract_content", some (.text b.content)), ("start", b.start.map .nat),
     ("end", b.stop.map .nat)]

/-- Reads a binding. -/
def Binding.decode : Decoder Binding :=
  record [["abstract_content"], ["start"], ["end"]] fun fs =>
    Binding.mk
      <$> fs.required "abstract_content" Document.text
      <*> fs.optional "start" (nat 64)
      <*> fs.optional "end" (nat 64)

/-! ## Matches -/

/-- The record of a match. -/
def Match.toJson (m : Match) : Json :=
  .record
    [("pattern_id", some (.text m.patternId)), ("start", some (.nat m.span.start)),
     ("end", some (.nat m.span.stop)), ("metavariables", some (.dict Binding.toJson m.bindings))]

/-- Reads a match; its span gets the names that the match binds. -/
def Match.decode : Decoder Match :=
  record [["pattern_id", "id"], ["start"], ["end"], ["metavariables"]] fun fs =>
    Match.ofBindings
      <$> fs.required "pattern_id" Document.text
      <*> fs.required "start" (nat 64)
      <*> fs.required "end" (nat 64)
      <*> fs.defaulted "metavariables" (dict Binding.decode) []

end RuleSieve
