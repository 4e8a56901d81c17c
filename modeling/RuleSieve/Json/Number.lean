/-
  Reading the numbers of JSON.

  A whole number without point and exponent that fits 64 bits is read exactly.  Every other number is
  read as a float: its digits make a significand of at most 64 bits, digits past that are dropped, and
  the significand is then scaled by a power of ten.  The scaling rounds, so the result need not be the
  nearest float.
-/
import RuleSieve.Number.Reading
import RuleSieve.Tree

namespace RuleSieve.Json

open Decimal (isDigit digitValue)

/-! ## Digits -/

/-- The significand with as many of the digits as it has room for, and the number of digits that were
    taken and that were left. -/
def absorb (significand : Nat) : (digits : List Char) → Nat × Nat × Nat
  | [] => (significand, 0, 0)
  | c :: cs =>
    let next := significand * 10 + digitValue c
    if Word.count ≤ next then (significand, 0, cs.length + 1)
    else
      let (total, taken, left) := absorb next cs
      (total, taken + 1, left)

/-! ## Scaling -/

/-- The float nearest to a power of ten. -/
def floatTenTo (n : Nat) : Float := Binary64.ofRatio false (tenTo n) 1

/-- The float divided by a power of ten, in steps when the power itself is no float. -/
def scaleDown (x : Float) (n : Nat) : Float :=
  if n ≤ 308 then x / floatTenTo n
  else if Binary64.magnitude x = 0 then x
  else scaleDown (x / floatTenTo 308) (n - 308)
termination_by n

/-- The float of a significand and a power of ten; none if it is too large. -/
def ofParts? (significand : Nat) (scale : Int) : Option Float :=
  let x := Binary64.ofRatio false significand 1
  if scale < 0 then some (scaleDown x scale.natAbs)
  else if scale ≤ 308 then
    let scaled := x * floatTenTo scale.toNat
    if Binary64.isFinite scaled then some scaled else none
  else if significand = 0 then some x
  else none

/-! ## Numbers -/

/-- A sign of the exponent, if any, and the rest. -/
def cutExponentSign : List Char → Bool × List Char
  | '-' :: rest => (true, rest)
  | '+' :: rest => (false, rest)
  | rest => (false, rest)

/-- The largest exponent that is looked at; a larger one is zero or out of range whatever the digits
    are. -/
def exponentLimit : Nat := 0x80000000

/-- The scale after an exponent of the given sign and size; none if it is out of range. -/
def addExponent? (significand : Nat) (scale : Int) (negative : Bool) (size : Nat) :
    Option (Nat × Int) :=
  if size < exponentLimit then
    let sum := if negative then scale - size else scale + size
    some (significand, max (-exponentLimit) (min sum (exponentLimit - 1)))
  else if negative || significand = 0 then some (0, 0)
  else none

/-- The exponent that a text begins with, put on top of the scale, and the rest. -/
def readExponent? (significand : Nat) (scale : Int) : List Char → Option ((Nat × Int) × List Char)
  | [] => some ((significand, scale), [])
  | c :: cs =>
    if c = 'e' || c = 'E' then
      let (negative, body) := cutExponentSign cs
      let digits := body.takeWhile isDigit
      if digits.isEmpty then none
      else
        (addExponent? significand scale negative (Decimal.value digits)).map fun parts =>
          (parts, body.dropWhile isDigit)
    else some ((significand, scale), c :: cs)

/-- The fraction and the exponent that a text begins with, after the whole part, and the rest. -/
def readFraction? (significand : Nat) (scale : Int) : List Char → Option ((Nat × Int) × List Char)
  | '.' :: cs =>
    let digits := cs.takeWhile isDigit
    if digits.isEmpty then none
    else
      let (total, taken, _) := absorb significand digits
      readExponent? total (scale - taken) (cs.dropWhile isDigit)
  | cs => readExponent? significand scale cs

/-- The whole part that a text begins with: a zero, or digits that do not begin with one. -/
def cutWhole? (text : List Char) : Option (List Char × List Char) :=
  let digits := text.takeWhile isDigit
  match digits with
  | [] => none
  | ['0'] => some (digits, text.dropWhile isDigit)
  | '0' :: _ => none
  | _ => some (digits, text.dropWhile isDigit)

/-- Does the text go on with a fraction or an exponent? -/
def goesOn : List Char → Bool
  | [] => false
  | c :: _ => c == '.' || c == 'e' || c == 'E'

/-- The integer, if there is room for it: the negative ones have 63 bits, the others 64.  A zero with a
    sign is none. -/
def integer? (negative : Bool) (n : Nat) : Option Scalar :=
  if negative then if n ≠ 0 && n ≤ Word.half then some (.int (-n)) else none
  else if n < Word.count then some (.int n) else none

/-- The float with a sign. -/
def signed (negative : Bool) (x : Float) : Scalar := .float (if negative then -x else x)

/-- The number that a text begins with, and the rest. -/
def readNumber? (text : List Char) : Option (Scalar × List Char) := do
  let (negative, body) := match text with
    | '-' :: rest => (true, rest)
    | rest => (false, rest)
  let (digits, rest) ← cutWhole? body
  let whole := if goesOn rest then none else integer? negative (Decimal.value digits)
  match whole with
  | some n => return (n, rest)
  | none =>
    let (significand, _, left) := absorb 0 digits
    let ((significand, scale), rest) ← readFraction? significand left rest
    let x ← ofParts? significand scale
    return (signed negative x, rest)

end RuleSieve.Json
