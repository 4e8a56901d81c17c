/-
  Binary floating-point numbers of 64 bits, seen as exact numbers.

  Three views of a float: what it denotes (`exact`), its place in the order of all floats
  (`place?`), and the float that lies nearest to a quotient of two natural numbers (`ofRatio`).
  Everything is computed on natural numbers from the bits, so nothing here rounds twice.
-/
import RuleSieve.Number.Word

namespace RuleSieve.Binary64

/-! ## What a float denotes -/

/-- A float is no number, an infinity, or `± mantissa · 2 ^ exponent`. -/
inductive Exact where
  | nan
  | infinite (negative : Bool)
  | finite (negative : Bool) (mantissa : Nat) (exponent : Int)
  deriving Repr, DecidableEq

/-- The bit above those of the fraction, which the bits of most floats leave out. -/
def impliedBit : Nat := 0x10000000000000

/-- The bits without the sign. -/
def magnitude (x : Float) : Nat := x.toBits.toNat % Word.half

/-- Is the sign bit set? -/
def isNegative (x : Float) : Bool := Word.half ≤ x.toBits.toNat

/-- The magnitude of the infinities; every larger one belongs to no number. -/
def infiniteMagnitude : Nat := 2047 * impliedBit

/-- What the float denotes.  Below the least exponent the leading bit is not implied. -/
def exact (x : Float) : Exact :=
  let field : Nat := magnitude x / impliedBit
  let fraction : Nat := magnitude x % impliedBit
  if field = 2047 then
    if fraction = 0 then .infinite (isNegative x) else .nan
  else if field = 0 then .finite (isNegative x) fraction (-1074)
  else .finite (isNegative x) (impliedBit + fraction) ((field : Int) - 1075)

/-- Is the float neither infinite nor NaN? -/
def isFinite (x : Float) : Bool := magnitude x < infiniteMagnitude

/-- Is the float a whole number? -/
def isWhole (x : Float) : Bool :=
  match exact x with
  | .finite _ mantissa exponent => mantissa % twoTo (-exponent).toNat == 0
  | _ => false

/-- The number without its fraction, if it is finite. -/
def truncate? (x : Float) : Option Int :=
  match exact x with
  | .finite negative mantissa exponent =>
    let whole := mantissa * twoTo exponent.toNat / twoTo (-exponent).toNat
    some (if negative then -(whole : Int) else whole)
  | _ => none

/-! ## Order -/

/-- The place of a float in the order of the numbers; both zeros have place zero, and what is no
    number has none. -/
def place? (x : Float) : Option Int :=
  if infiniteMagnitude < magnitude x then none
  else some (if isNegative x then -(magnitude x : Int) else magnitude x)

/-- The order of two floats, unless one of them is no number. -/
def compare? (x y : Float) : Option Ordering :=
  match place? x, place? y with
  | some a, some b => some (compare a b)
  | _, _ => none

/-- Do the two floats denote the same number? -/
def same (x y : Float) : Bool := compare? x y == some .eq

/-! ## Rounding -/

/-- The quotient rounded to the nearest natural number; a half goes to the even neighbour. -/
def divNearest (num den : Nat) : Nat :=
  let whole := num / den
  let rest := num % den
  if 2 * rest < den then whole
  else if den < 2 * rest then whole + 1
  else whole + whole % 2

/-- The exponent of the last bit of the float nearest to `num / den`: 53 bits are kept, unless the
    number is too small for that many. -/
def lastBit (num den : Nat) : Int :=
  let k := (num.log2 : Int) - den.log2
  let top := if den * twoTo k.toNat ≤ num * twoTo (-k).toNat then k else k - 1
  max (top - 52) (-1074)

/-- The float nearest to `± num / den`; a half goes to the even neighbour, and what is too large
    becomes infinite. -/
def ofRatio (negative : Bool) (num den : Nat) : Float :=
  let last := if num = 0 then -1074 else lastBit num den
  let units := divNearest (num * twoTo (-last).toNat) (den * twoTo last.toNat)
  let bits := min ((last + 1074).toNat * impliedBit + units) infiniteMagnitude
  Float.ofBits (UInt64.ofNat (if negative then Word.half + bits else bits))

/-- The float nearest to an integer. -/
def ofInt (n : Int) : Float := ofRatio (n < 0) n.natAbs 1

/-- What is no number, with the usual bits. -/
def nan : Float := Float.ofBits 0x7FF8000000000000

/-- An infinity. -/
def infinity (negative : Bool) : Float :=
  Float.ofBits (UInt64.ofNat (if negative then Word.half + infiniteMagnitude else infiniteMagnitude))

end RuleSieve.Binary64
