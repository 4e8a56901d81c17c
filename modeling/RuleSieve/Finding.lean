/-
  What a rule reports about a match.
-/
import RuleSieve.Match
import RuleSieve.Regex.Matches
import RuleSieve.Severity
import RuleSieve.Fault
import RuleSieve.Tree

namespace RuleSieve

/-! ## Fixes by regular expression -/

/-- A fix that replaces matches of a pattern in the matched text. -/
structure FixRegex where
  regex : String
  replacement : String
  /-- How many matches are replaced, from the left. -/
  count : Option Nat
  deriving Repr, DecidableEq

/-- The text after the fix.  A count of zero sets no limit. -/
def FixRegex.apply (fix : FixRegex) (text : String) : Except Fault String := do
  let regex ← (Regex.compile fix.regex.toList).mapError (.invalidRegex fix.regex)
  return String.ofList (regex.replace text.toList fix.replacement.toList (fix.count.getD 0))

/-! ## Findings -/

/-- A match that a rule reports. -/
structure Finding where
  ruleId : String
  /-- The file of the match, if it is known. -/
  path : Option String
  span : Span
  message : String
  metadata : Dict Json
  severity : Severity
  fix : Option String
  fixRegex : Option FixRegex
  /-- What the match binds. -/
  bindings : Dict Binding

namespace Finding

/-- Does the finding come with a fix of either kind? -/
def hasFix (f : Finding) : Bool := f.fix.isSome || f.fixRegex.isSome

/-- The path as reports show it. -/
def shownPath (path : Option String) : String := path.getD "<unknown>"

end Finding

end RuleSieve
