/-
  Lower and upper case of texts, and the characters that differ in case only.

  The lower-case form of a capital sigma depends on its surroundings: at the end of a word it is
  the final sigma.  Every other character is mapped on its own.
-/
import RuleSieve.Text.Category
import RuleSieve.Text.CaseTable

namespace RuleSieve.Text

/-! ## Mapping texts -/

/-- The rows of the lower-case mapping. -/
def lowerMap : PointMap := PointMap.read lowerTable

/-- The rows of the upper-case mapping. -/
def upperMap : PointMap := PointMap.read upperTable

/-- The lower-case form of a character away from its surroundings. -/
def lowerChar (c : Char) : List Char :=
  match lowerSpecial.lookup c.toNat with
  | some image => image.map Char.ofNat
  | none => [lowerMap.apply c]

/-- The upper-case form of a character. -/
def upperChar (c : Char) : List Char :=
  match upperSpecial.lookup c.toNat with
  | some image => image.map Char.ofNat
  | none => [upperMap.apply c]

/-- Is the first character that is not passed over a cased one? -/
def meetsCased (cs : List Char) : Bool :=
  match cs.dropWhile caseIgnorable.contains with
  | c :: _ => cased.contains c
  | [] => false

/-- The lower-case form of what follows `before`, which is held in reverse. -/
def lowerFrom (before : List Char) : (text : List Char) → List Char
  | [] => []
  | c :: text =>
    let image :=
      if c = 'Σ' then [if meetsCased before && !meetsCased text then 'ς' else 'σ']
      else lowerChar c
    image ++ lowerFrom (c :: before) text

/-- The text in lower case. -/
def lower (s : String) : String := String.ofList (lowerFrom [] s.toList)

/-- The text in upper case. -/
def upper (s : String) : String := String.ofList (s.toList.flatMap upperChar)

/-! ## Folding -/

/-- The rows of the case folding. -/
def foldMap : PointMap := PointMap.read foldTable

/-- The characters that agree with `c` when case is ignored, `c` among them. -/
def caseVariants (c : Char) : List Char :=
  let base := foldMap.apply c
  base :: foldMap.preimages base

end RuleSieve.Text
