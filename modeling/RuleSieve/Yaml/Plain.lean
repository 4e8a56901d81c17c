/-
  What a YAML scalar without quotes means where its type is left open.

  Words stand for the missing value and for truth values, then come integers and floats; everything
  else is a text.  A number with a zero in front of other digits is a text too.
-/
import RuleSieve.Number.Reading
import RuleSieve.Text.CodePoints
import RuleSieve.Tree

namespace RuleSieve.Yaml.Plain

open Decimal (cutSign)

/-! ## Words -/

/-- Does the scalar stand for the missing value? -/
def isNull (text : String) : Bool := ["", "~", "null", "Null", "NULL"].contains text

/-- The truth value that a scalar stands for. -/
def bool? (text : String) : Option Bool :=
  if ["true", "True", "TRUE"].contains text then some true
  else if ["false", "False", "FALSE"].contains text then some false
  else none

/-! ## Integers -/

/-- The value of a digit in a base. -/
def digitIn? (base : Nat) (c : Char) : Option Nat :=
  (Text.hexDigit? c).filter (· < base)

/-- The number that a text writes in a base, if it has digits only and at least one of them. -/
def digitsIn? (base : Nat) (text : List Char) : Option Nat :=
  if text.isEmpty then none
  else text.foldlM (fun n c => (digitIn? base c).map fun d => n * base + d) 0

/-- Is a zero followed by more decimal digits? -/
def hasLeadingZero (body : List Char) : Bool :=
  1 < body.length && body.head? == some '0' && body.all Decimal.isDigit

/-- The number that a text without its sign writes: in base 16, 8 or 2 after `0x`, `0o` or `0b`, else in
    base 10. -/
def magnitude? (body : List Char) : Option Nat :=
  let based := match body with
    | '0' :: 'x' :: rest => digitsIn? 16 rest
    | '0' :: 'o' :: rest => digitsIn? 8 rest
    | '0' :: 'b' :: rest => digitsIn? 2 rest
    | _ => none
  based <|> if hasLeadingZero body then none else digitsIn? 10 body

/-- The integer that a scalar writes. -/
def int? (text : String) : Option Int :=
  let (negative, body) := cutSign text.toList
  (magnitude? body).map fun n => if negative then -(n : Int) else n

/-- The natural number of at most 64 bits that a scalar writes; it may have a plus sign. -/
def nat? (text : String) : Option Nat :=
  if text.toList.head? = some '-' then none
  else (int? text).bind fun n => if n < Word.count then some n.toNat else none

/-! ## Floats -/

/-- Infinity in its three spellings. -/
def isInfinity (body : String) : Bool := [".inf", ".Inf", ".INF"].contains body

/-- The float that a scalar writes. -/
def float? (text : String) : Option Float :=
  let (negative, body) := cutSign text.toList
  if isInfinity (String.ofList body) then some (Binary64.infinity negative)
  else if [".nan", ".NaN", ".NAN"].contains text then some Binary64.nan
  else if text.toList.head? = some '+' && (cutSign body).2 != body then none
  else (Binary64.read? text.toList).filter Binary64.isFinite

/-! ## Any scalar -/

/-- What a scalar means.  An integer has at most 64 bits; one that has more, but not more than 128, has
    no meaning, and a still longer one is a float. -/
def resolve? (text : String) : Option Scalar :=
  if isNull text then some .null
  else
    match bool? text, int? text with
    | some b, _ => some (.bool b)
    | none, some n =>
      if -(Word.half : Int) ≤ n && n < Word.count then some (.int n)
      else if -(twoTo 127 : Int) ≤ n && n < twoTo 128 then none
      else some ((float? text).elim (.text text) .float)
    | none, none =>
      if hasLeadingZero (cutSign text.toList).2 then some (.text text)
      else some ((float? text).elim (.text text) .float)

end RuleSieve.Yaml.Plain
