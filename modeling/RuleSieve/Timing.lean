/-
  How long rules take.

  Times are whole nanoseconds, with 64 bits for the whole seconds among them, and counts have 64 bits.
  `Timing.add` is the sum itself, and `Timing.add?` what becomes of it with so much room.
-/
import RuleSieve.Dict
import RuleSieve.Number.Written

namespace RuleSieve

/-- What is known about the evaluations of a rule. -/
structure Timing where
  ruleId : String
  total : Nat
  evaluations : Nat
  findings : Nat
  deriving Repr, DecidableEq

namespace Timing

/-- The number of evaluations as the average takes it, in 32 bits. -/
def divisor (t : Timing) : Nat := t.evaluations % twoTo 32

/-- The average time of an evaluation: zero if there was none.  There is no average if the number of
    evaluations is not zero but comes out as zero in 32 bits. -/
def average? (t : Timing) : Option Nat :=
  if t.evaluations = 0 then some 0
  else if t.divisor = 0 then none
  else some (t.total / t.divisor)

/-- The timing with that of other evaluations of the rule added, however large the numbers become. -/
def add (t other : Timing) : Timing :=
  { t with
    total := t.total + other.total
    evaluations := t.evaluations + other.evaluations
    findings := t.findings + other.findings }

/-- The timings of two tables together, however large the numbers become. -/
def mergeAll (timings others : Dict Timing) : Dict Timing :=
  others.foldl (fun timings (id, other) =>
    timings.alter id fun known => (known.getD ⟨other.ruleId, 0, 0, 0⟩).add other) timings

/-! ## In 64 bits -/

/-- There is no room for as many nanoseconds, which make as many seconds as 64 bits have no room for. -/
def timeLimit : Nat := Word.count * tenTo 9

/-- The sum of two times, if there is room for it. -/
def addTime? (m n : Nat) : Option Nat := if m + n < timeLimit then some (m + n) else none

/-- The timing with that of other evaluations of the rule added in 64 bits; the additions of counts may
    be checked, and those of times are. -/
def add? (checked : Bool) (t other : Timing) : Option Timing := do
  let total ← addTime? t.total other.total
  let evaluations ← Word.add? checked t.evaluations other.evaluations
  let findings ← Word.add? checked t.findings other.findings
  return { t with total, evaluations, findings }

/-- The timings of two tables together, added up in 64 bits. -/
def mergeAll? (checked : Bool) (timings others : Dict Timing) : Option (Dict Timing) :=
  others.foldlM (fun timings (id, other) => do
    let known := (timings.find? id).getD ⟨other.ruleId, 0, 0, 0⟩
    let sum ← known.add? checked other
    return timings.insert id sum) timings

/-- The timings, the rule that took longest first. -/
def slowestFirst (timings : Dict Timing) : List Timing :=
  (timings.map (·.2)).mergeSort fun a b => b.total ≤ a.total

end Timing

/-! ## Columns of a fixed width -/

namespace Text

/-- Spaces that fill a text up to a width. -/
def filling (width : Nat) (s : String) : String :=
  String.ofList (List.replicate (width - s.length) ' ')

/-- The text at the left of a column. -/
def atLeft (width : Nat) (s : String) : String := s ++ filling width s

/-- The text at the right of a column. -/
def atRight (width : Nat) (s : String) : String := filling width s ++ s

end Text

/-! ## The table -/

namespace Timing

/-- A time in seconds. -/
def seconds (nanoseconds : Nat) : Float :=
  Binary64.ofInt (nanoseconds / tenTo 9 : Nat) + Binary64.ofInt (nanoseconds % tenTo 9 : Nat) / 1e9

/-- One line of the table. -/
def row (id total average evaluations findings : String) : String :=
  Text.atLeft 40 id ++ " " ++ total ++ " " ++ average ++ " " ++ Text.atRight 10 evaluations ++ " "
    ++ Text.atRight 12 findings ++ "\n"

/-- A time in a column, with two places after the point. -/
def timeColumn (x : Float) (unit : String) : String :=
  Text.atRight 10 (Binary64.fixedText 2 x) ++ unit

/-- The line of a rule; none if it has no average. -/
def line? (t : Timing) : Option String :=
  t.average?.map fun average =>
    row t.ruleId (timeColumn (seconds t.total * 1e3) "ms") (timeColumn (seconds average * 1e6) "µs")
      (toString t.evaluations) (toString t.findings)

/-- The head of the table. -/
def heading : String :=
  "Rule Timing Statistics:\n"
    ++ row "Rule ID" (Text.atRight 12 "Total") (Text.atRight 12 "Avg") "Evals" "Findings"
    ++ String.ofList (List.replicate 90 '-') ++ "\n"

/-- The table of all timings; none if one of them has no average. -/
def table? (timings : Dict Timing) : Option String :=
  if timings.isEmpty then some "No timing data available"
  else do
    let lines ← (slowestFirst timings).mapM line?
    return heading ++ String.join lines

end Timing

end RuleSieve
