/-
  Natural numbers and integers in decimal digits.
-/
namespace RuleSieve.Decimal

/-- Is the character one of the ten ASCII digits? -/
def isDigit (c : Char) : Bool := '0' ≤ c && c ≤ '9'

/-- The value of a digit. -/
def digitValue (c : Char) : Nat := c.toNat - '0'.toNat

/-- The number that a run of digits writes, continuing from `start`. -/
def valueFrom (start : Nat) (digits : List Char) : Nat :=
  digits.foldl (fun n c => n * 10 + digitValue c) start

/-- The number that a run of digits writes. -/
def value (digits : List Char) : Nat := valueFrom 0 digits

/-- The decimal digits of a natural number. -/
def digits (n : Nat) : List Char := Nat.toDigits 10 n

/-- The decimal text of an integer. -/
def ofInt (n : Int) : List Char :=
  if n < 0 then '-' :: digits n.natAbs else digits n.natAbs

/-- The sign that a text begins with, if any, and the rest. -/
def cutSign : List Char → Bool × List Char
  | '-' :: rest => (true, rest)
  | '+' :: rest => (false, rest)
  | rest => (false, rest)

/-- The integer that a whole text writes: an optional sign and at least one digit. -/
def readInt? (text : List Char) : Option Int :=
  let (negative, ds) := cutSign text
  if ds.isEmpty || !ds.all isDigit then none
  else some (if negative then -(value ds : Int) else value ds)

end RuleSieve.Decimal
