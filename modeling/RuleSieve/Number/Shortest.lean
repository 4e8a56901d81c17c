/-
  The shortest decimal number that reads back as a given float.

  The decimals that read back are those in an interval around the float.  A grid of one, two, …
  digits has a point in that interval just when one of the float's two neighbours on the grid lies
  in it, so trying the neighbours on finer and finer grids finds the fewest digits; seventeen
  always suffice.
-/
import RuleSieve.Number.Binary64

namespace RuleSieve.Binary64

/-- The decimal number `significand · 10 ^ scale`. -/
structure Scaled where
  significand : Nat
  scale : Int
  deriving Repr, DecidableEq

/-- Compares `a · 10 ^ scale` with `m · 2 ^ e`. -/
def compareScaled (a : Nat) (scale : Int) (m : Nat) (e : Int) : Ordering :=
  compare (a * tenTo scale.toNat * twoTo (-e).toNat) (m * twoTo e.toNat * tenTo (-scale).toNat)

/-- The whole part of `m · 2 ^ e / 10 ^ scale`. -/
def floorScaled (m : Nat) (e scale : Int) : Nat :=
  m * twoTo e.toNat * tenTo (-scale).toNat / (tenTo scale.toNat * twoTo (-e).toNat)

/-- The exponent of the leading decimal digit of `m · 2 ^ e`. -/
def leadingPlace (m : Nat) (e : Int) : Int :=
  let guess := ((m.log2 : Int) + e) * 30103 / 100000
  if compareScaled 1 (guess + 1) m e != .gt then guess + 1
  else if compareScaled 1 guess m e == .gt then guess - 1
  else guess

/-- Does `a · 10 ^ scale` read back as the float `m · 2 ^ e`?  The ends of the interval belong to it
    when the mantissa is even; below a power of two the float's neighbour is closer. -/
def readsBack (a : Nat) (scale : Int) (m : Nat) (e : Int) : Bool :=
  let low := if m == impliedBit && e != -1074 then 4 * m - 1 else 4 * m - 2
  let below := compareScaled a scale low (e - 2)
  let above := compareScaled a scale (4 * m + 2) (e - 2)
  if m % 2 == 0 then below != .lt && above != .gt else below == .gt && above == .lt

/-- The neighbour of `m · 2 ^ e` on a grid that reads back; of two, the nearer one, and of two
    equally near the even one. -/
def onGrid? (m : Nat) (e scale : Int) : Option Nat :=
  let under := floorScaled m e scale
  match readsBack under scale m e, readsBack (under + 1) scale m e with
  | true, true =>
    match compareScaled (2 * under + 1) scale (2 * m) e with
    | .gt => some under
    | .lt => some (under + 1)
    | .eq => some (under + under % 2)
  | true, false => some under
  | false, true => some (under + 1)
  | false, false => none

/-- The number without its trailing zeros, of which at most `fuel` are dropped. -/
def Scaled.dropZeros : Nat → Scaled → Scaled
  | 0, d => d
  | fuel + 1, d =>
    if d.significand != 0 && d.significand % 10 == 0 then
      dropZeros fuel ⟨d.significand / 10, d.scale + 1⟩
    else d

/-- The shortest decimal that reads back as `m · 2 ^ e`, without trailing zeros. -/
def shortest (m : Nat) (e : Int) : Scaled :=
  if m = 0 then ⟨0, 0⟩
  else
    let lead := leadingPlace m e
    let found := (List.range 17).findSome? fun (n : Nat) =>
      let scale := lead - n
      (onGrid? m e scale).map fun a => (⟨a, scale⟩ : Scaled)
    (found.getD ⟨floorScaled m e (lead - 16), lead - 16⟩).dropZeros 18

end RuleSieve.Binary64
