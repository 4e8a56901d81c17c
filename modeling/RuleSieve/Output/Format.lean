/-
  The formats in which reports are written.
-/
import RuleSieve.Output.Json
import RuleSieve.Output.Text

namespace RuleSieve

/-- The formats that a user can ask for. -/
inductive OutputFormat where
  | text
  | json
  deriving Repr, DecidableEq

/-- The format of a name in any case, or the name in lower case. -/
def OutputFormat.ofName (name : String) : Except String OutputFormat :=
  match Text.lower name with
  | "text" => .ok .text
  | "json" => .ok .json
  | other => .error other

/-- The wording for a name of no format. -/
def OutputFormat.unknownName (name : String) : String := s!"unknown output format '{name}'"

/-- A way to write reports. -/
inductive Writer where
  | text (style : TextStyle)
  /-- `spread` over several lines, or on one. -/
  | json (spread : Bool)

namespace Writer

/-- The writer of a format. -/
def ofFormat (format : OutputFormat) (colored traces : Bool) : Writer :=
  match format with
  | .text => .text { colored, traces }
  | .json => .json true

/-- Writes a value in JSON. -/
def writeJson (spread : Bool) (value : Json) : String :=
  if spread then Json.pretty value else Json.print value

/-- Writes a report. -/
def report : Writer → Report → String
  | .text style, r => style.report r
  | .json spread, r => writeJson spread r.toJson

/-- Writes one finding. -/
def finding : Writer → Finding → String
  | .text style, f => style.finding f
  | .json spread, f => writeJson spread f.toSummary

end Writer

end RuleSieve
