/-
  The number that a bound text writes.

  A text with a point writes a float; any other text writes an integer in some base, with an optional
  sign and, for three of the bases, an optional mark.  An integer that has no room in 64 bits becomes
  a float.  Underscores may stand inside a number, but not at its ends and not side by side.
-/
import RuleSieve.Predicate.Value
import RuleSieve.Number.Reading
import RuleSieve.Text.Blank
import RuleSieve.Text.Find

namespace RuleSieve.NumberText

open Predicate (Value)
open Text (dropStart?)

/-- The quotes that may be left out around a number. -/
def isQuote (c : Char) : Bool := c == '"' || c == '\'' || c == '\x60'

/-- Do two underscores stand side by side? -/
def hasDoubleMark : List Char → Bool
  | '_' :: '_' :: _ => true
  | _ :: cs => hasDoubleMark cs
  | [] => false

/-- The text without its underscores, if none of them is at an end or beside another one. -/
def dropMarks? (cs : List Char) : Option (List Char) :=
  if cs.head? = some '_' || cs.getLast? = some '_' || hasDoubleMark cs then none
  else some (cs.filter (· != '_'))

/-! ## Integers -/

/-- The value of a digit in a base; letters of either case follow the ten digits. -/
def digitIn? (base : Nat) (c : Char) : Option Nat :=
  let value? :=
    if '0' ≤ c && c ≤ '9' then some (c.toNat - '0'.toNat)
    else if 'a' ≤ c && c ≤ 'z' then some (c.toNat - 'a'.toNat + 10)
    else if 'A' ≤ c && c ≤ 'Z' then some (c.toNat - 'A'.toNat + 10)
    else none
  value?.filter (· < base)

/-- How far a run of digits can be read within a limit. -/
inductive DigitRun where
  | value (n : Nat)
  /-- The limit is passed before anything else is wrong. -/
  | tooLarge
  /-- A character is no digit. -/
  | invalid
  deriving Repr, DecidableEq

/-- Reads digits that go on after `n`. -/
def readRun (base limit n : Nat) : List Char → DigitRun
  | [] => .value n
  | c :: cs =>
    match digitIn? base c with
    | none => .invalid
    | some d =>
      let next := n * base + d
      if limit < next then .tooLarge else readRun base limit next cs

/-- A large number, as a float.  In base ten the digits are read as the text of a float; in other
    bases the value is added up digit by digit. -/
def wideMagnitude? (base : Nat) (digits : List Char) : Option Float :=
  if base = 10 then Binary64.read? digits
  else
    digits.foldlM (fun acc c => (digitIn? base c).map fun d =>
      acc * Binary64.ofInt base + Binary64.ofInt d) (Binary64.ofInt 0)

/-- The marks of the bases that have one. -/
def baseMarks : Nat → List (List Char)
  | 16 => [['0', 'x'], ['0', 'X']]
  | 8 => [['0', 'o'], ['0', 'O']]
  | 2 => [['0', 'b'], ['0', 'B']]
  | _ => []

/-- The text without the mark of the base, and without an underscore after that. -/
def dropBaseMark (base : Nat) (cs : List Char) : List Char :=
  match (baseMarks base).findSome? (dropStart? · cs) with
  | some ('_' :: rest) => rest
  | some rest => rest
  | none => cs

/-- The value of an integer of the given sign. -/
def signedInt (negative : Bool) (n : Nat) : Value :=
  .int (Int64.ofInt (if negative then -(n : Int) else n))

/-- The integer that a text writes in a base. -/
def readInt? (base : Nat) (text : List Char) : Option Value :=
  if base < 2 || 36 < base then none
  else do
    let (negative, body) := Decimal.cutSign (Text.trim text)
    let digits ← dropMarks? (dropBaseMark base body)
    match digits with
    | [] | '+' :: _ | '-' :: _ => none
    | digits =>
      match readRun base (if negative then Word.half else Word.half - 1) 0 digits with
      | .value n => some (signedInt negative n)
      | .tooLarge => do
        let magnitude ← wideMagnitude? base digits
        return .float (if negative then -magnitude else magnitude)
      | .invalid => none

/-! ## Numbers -/

/-- The float that a text writes. -/
def readFloat? (text : List Char) : Option Float :=
  (dropMarks? (Text.trim text)).bind Binary64.read?

/-- The number that a text writes; `strip` leaves out quotes around it, and integers are in base ten
    unless another base is given. -/
def read? (text : String) (strip : Bool) (base : Option Nat) : Option Value :=
  let cs := if strip then Text.trimBy isQuote text.toList else text.toList
  if cs.contains '.' then (readFloat? cs).map .float else readInt? (base.getD 10) cs

end RuleSieve.NumberText
