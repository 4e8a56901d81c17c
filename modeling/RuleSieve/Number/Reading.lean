/-
  Reading a float from its text.

  The text is an optional sign and either a word (`inf`, `infinity`, `nan`, in any case) or digits
  with an optional point and an optional exponent; at least one digit stands before or after the
  point.  The result is the float nearest to the number that is written.
-/
import RuleSieve.Number.Binary64
import RuleSieve.Number.Decimal

namespace RuleSieve.Binary64

open Decimal (isDigit value cutSign)

/-- The float nearest to `± significand · 10 ^ scale`.  A number of `n` digits is out of range when
    `n + scale` is past 310 or below -330, whatever the digits are. -/
def ofDecimal (negative : Bool) (significand : Nat) (scale : Int) : Float :=
  let places := (Decimal.digits significand).length + scale
  if significand = 0 || places < -330 then ofRatio negative 0 1
  else if 310 < places then infinity negative
  else ofRatio negative (significand * tenTo scale.toNat) (tenTo (-scale).toNat)

/-- The exponent at the end of a number: nothing, or a mark, an optional sign and digits. -/
def readExponent? : List Char → Option Int
  | [] => some 0
  | c :: rest => if c = 'e' || c = 'E' then Decimal.readInt? rest else none

/-- The float that unsigned digits write. -/
def readDigits? (negative : Bool) (text : List Char) : Option Float :=
  let whole := text.takeWhile isDigit
  let rest := text.dropWhile isDigit
  let (fraction, rest) :=
    match rest with
    | '.' :: rest => (rest.takeWhile isDigit, rest.dropWhile isDigit)
    | rest => ([], rest)
  if whole.isEmpty && fraction.isEmpty then none
  else
    (readExponent? rest).map fun exponent =>
      ofDecimal negative (value (whole ++ fraction)) (exponent - fraction.length)

/-- The ASCII letters in lower case, and every other character as it stands. -/
def lowerLetter (c : Char) : Char :=
  if 'A' ≤ c && c ≤ 'Z' then Char.ofNat (c.toNat + 32) else c

/-- The float that a whole text writes. -/
def read? (text : List Char) : Option Float :=
  let (negative, body) := cutSign text
  let word := body.map lowerLetter
  if word = ['i', 'n', 'f'] || word = ['i', 'n', 'f', 'i', 'n', 'i', 't', 'y'] then
    some (infinity negative)
  else if word = ['n', 'a', 'n'] then some nan
  else readDigits? negative body

end RuleSieve.Binary64
