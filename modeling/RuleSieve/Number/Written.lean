/-
  The text of a float.

  A style says where positional notation ends and whether a whole number keeps its `.0`; the digits
  are always the shortest ones that read back.  Beside it stands the text with a fixed number of
  places, which is rounded from the exact value.
-/
import RuleSieve.Number.Shortest
import RuleSieve.Number.Decimal

namespace RuleSieve.Binary64

/-! ## Styles -/

/-- How a float is written: the number of digits before the point decides between positional and
    exponent notation. -/
structure Style where
  /-- Positional notation needs more digits before the point than this. -/
  above : Option Int
  /-- Positional notation has at most this many digits before the point. -/
  atMost : Option Int
  /-- Is `.0` written after a whole number? -/
  wholePoint : Bool

/-- Is a number with its point after `before` digits written positionally? -/
def Style.positional (style : Style) (before : Int) : Bool :=
  style.above.all (· < before) && style.atMost.all (before ≤ ·)

/-- A run of zeros. -/
def zeros (n : Int) : List Char := List.replicate n.toNat '0'

/-- The digits with the decimal point after the first `before` of them. -/
def placePoint (ds : List Char) (before : Int) (wholePoint : Bool) : List Char :=
  if before ≤ 0 then ['0', '.'] ++ zeros (-before) ++ ds
  else if ds.length ≤ before then
    ds ++ zeros (before - ds.length) ++ (if wholePoint then ['.', '0'] else [])
  else ds.take before.toNat ++ '.' :: ds.drop before.toNat

/-- The digits with the point after the first one, and an exponent. -/
def withExponent (ds : List Char) (before : Int) : List Char :=
  ds.take 1 ++ (if ds.length ≤ 1 then [] else '.' :: ds.drop 1) ++ 'e' :: Decimal.ofInt (before - 1)

/-- The text of `± mantissa · 2 ^ exponent`. -/
def finiteText (style : Style) (negative : Bool) (mantissa : Nat) (exponent : Int) : List Char :=
  let short := shortest mantissa exponent
  let ds := Decimal.digits short.significand
  let before := ds.length + short.scale
  let body :=
    if style.positional before then placePoint ds before style.wholePoint
    else withExponent ds before
  if negative then '-' :: body else body

/-- The text of a float. -/
def text (style : Style) (x : Float) : String :=
  match exact x with
  | .nan => "NaN"
  | .infinite negative => if negative then "-inf" else "inf"
  | .finite negative mantissa exponent =>
    String.ofList (finiteText style negative mantissa exponent)

/-! ## Fixed places -/

/-- The absolute value of a finite float times `10 ^ places`, rounded to the nearest natural number. -/
def scaledMagnitude (mantissa : Nat) (exponent : Int) (places : Nat) : Nat :=
  divNearest (mantissa * twoTo exponent.toNat * tenTo places) (twoTo (-exponent).toNat)

/-- The text of a float with a fixed number of places after the point; a half goes to the even
    neighbour. -/
def fixedText (places : Nat) (x : Float) : String :=
  match exact x with
  | .nan => "NaN"
  | .infinite negative => if negative then "-inf" else "inf"
  | .finite negative mantissa exponent =>
    let ds := Decimal.digits (scaledMagnitude mantissa exponent places)
    let padded := List.replicate (places + 1 - ds.length) '0' ++ ds
    let before := padded.take (padded.length - places)
    let after := padded.drop (padded.length - places)
    String.ofList ((if negative then ['-'] else []) ++ before ++
      (if places = 0 then [] else '.' :: after))

end RuleSieve.Binary64
