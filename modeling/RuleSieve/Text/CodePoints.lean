/-
  Sets of code points and maps between them, read from written rows.

  A row of a set is `point`, `first-last` or `first-last/step`; a row of a map has `:image` after
  that.  All numbers are hexadecimal, and rows are separated by blanks.
-/
namespace RuleSieve.Text

/-! ## Rows -/

/-- The code points `first`, `first + step`, … that do not pass `last`. -/
structure Stretch where
  first : Nat
  last : Nat
  step : Nat
  deriving Repr, DecidableEq

/-- Does the point lie on the stretch? -/
def Stretch.contains (s : Stretch) (n : Nat) : Bool :=
  s.first ≤ n && n ≤ s.last && (n - s.first) % s.step == 0

/-- A stretch whose points are sent, in order, to the points from `image` on. -/
structure Shift where
  source : Stretch
  image : Nat
  deriving Repr, DecidableEq

/-- The image of a point that lies on the source. -/
def Shift.apply? (s : Shift) (n : Nat) : Option Nat :=
  if s.source.contains n then some (s.image + (n - s.source.first)) else none

/-- The points of the source that are sent to `n`. -/
def Shift.preimage? (s : Shift) (n : Nat) : Option Nat :=
  let m := s.source.first + (n - s.image)
  if s.image ≤ n && s.source.contains m then some m else none

/-! ## Reading rows -/

/-- The words of a text. -/
def words : List Char → List (List Char)
  | [] => []
  | c :: cs =>
    if c.isWhitespace then words cs
    else
      match words cs with
      | [] => [[c]]
      | word :: more =>
        if cs.head?.any Char.isWhitespace then [c] :: word :: more else (c :: word) :: more

/-- The value of a hexadecimal digit. -/
def hexDigit? (c : Char) : Option Nat :=
  if '0' ≤ c && c ≤ '9' then some (c.toNat - '0'.toNat)
  else if 'a' ≤ c && c ≤ 'f' then some (c.toNat - 'a'.toNat + 10)
  else if 'A' ≤ c && c ≤ 'F' then some (c.toNat - 'A'.toNat + 10)
  else none

/-- The number that a run of hexadecimal digits writes; other characters count as zero digits. -/
def hexNumber (cs : List Char) : Nat :=
  cs.foldl (fun n c => n * 16 + (hexDigit? c).getD 0) 0

/-- What stands before the first `sep`, and what stands after it if there is one. -/
def cutAt (sep : Char) : List Char → List Char × Option (List Char)
  | [] => ([], none)
  | c :: cs =>
    if c = sep then ([], some cs)
    else
      let (before, after) := cutAt sep cs
      (c :: before, after)

/-- The stretch that one row writes. -/
def Stretch.read (row : List Char) : Stretch :=
  let (range, step) := cutAt '/' row
  let (first, last) := cutAt '-' range
  ⟨hexNumber first, hexNumber (last.getD first), (step.map hexNumber).getD 1⟩

/-- The shift that one row writes. -/
def Shift.read (row : List Char) : Shift :=
  let (source, image) := cutAt ':' row
  ⟨Stretch.read source, hexNumber (image.getD [])⟩

/-! ## Sets and maps -/

/-- A set of code points. -/
abbrev CodePoints := Array Stretch

namespace CodePoints

/-- The set that a text of rows writes. -/
def read (rows : String) : CodePoints :=
  ((words rows.toList).map Stretch.read).toArray

/-- Is the character in the set? -/
def contains (s : CodePoints) (c : Char) : Bool :=
  s.any fun stretch => stretch.contains c.toNat

end CodePoints

/-- A map from code points to code points; points on no row are sent to themselves. -/
abbrev PointMap := Array Shift

namespace PointMap

/-- The map that a text of rows writes. -/
def read (rows : String) : PointMap :=
  ((words rows.toList).map Shift.read).toArray

/-- The image of a character. -/
def apply (m : PointMap) (c : Char) : Char :=
  match m.findSome? fun shift => shift.apply? c.toNat with
  | some n => Char.ofNat n
  | none => c

/-- The other characters that are sent to `c`. -/
def preimages (m : PointMap) (c : Char) : List Char :=
  m.toList.filterMap fun shift => (shift.preimage? c.toNat).map Char.ofNat

end PointMap

end RuleSieve.Text
