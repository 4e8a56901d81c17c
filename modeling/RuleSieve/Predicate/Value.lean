/-
  The values of predicates.
-/
import RuleSieve.Dict
import RuleSieve.Number.Written
import RuleSieve.Text.Quoted

namespace RuleSieve.Predicate

/-- A value.  The entries of a map are sorted by name. -/
inductive Value where
  | int (n : Int64)
  | float (x : Float)
  | str (s : String)
  | bool (b : Bool)
  | map (entries : List (String × Value))
  deriving Repr

/-- The values that names stand for. -/
abbrev Scope := Dict Value

namespace Value

/-- Zero, the empty text, the empty map and false do not hold; every other value does. -/
def truthy : Value → Bool
  | .int n => n != 0
  | .float x => Binary64.place? x != some 0
  | .str s => !s.isEmpty
  | .bool b => b
  | .map entries => !entries.isEmpty

/-- The name of the value's type. -/
def typeName : Value → String
  | .int _ => "int"
  | .float _ => "float"
  | .str _ => "str"
  | .bool _ => "bool"
  | .map _ => "map"

/-- The float nearest to a number; truth values count as zero and one. -/
def float? : Value → Option Float
  | .int n => some (Binary64.ofInt n.toInt)
  | .float x => some x
  | .bool b => some (Binary64.ofInt (if b then 1 else 0))
  | _ => none

/-- An integer; truth values count as zero and one. -/
def int? : Value → Option Int64
  | .int n => some n
  | .bool b => some (if b then 1 else 0)
  | _ => none

/-! ## Text -/

/-- A float with a fraction is written positionally, with the fewest digits that read back. -/
def floatStyle : Binary64.Style := ⟨none, none, false⟩

/-- The text of a float.  A whole number is written out exactly and keeps its point. -/
def floatText (x : Float) : String :=
  if Binary64.isWhole x then Binary64.fixedText 1 x else Binary64.text floatStyle x

mutual

/-- The text of a value. -/
def text : Value → String
  | .int n => String.ofList (Decimal.ofInt n.toInt)
  | .float x => floatText x
  | .str s => s
  | .bool true => "True"
  | .bool false => "False"
  | .map entries => "\x7b" ++ String.intercalate ", " (entryTexts entries) ++ "\x7d"

/-- The texts of the entries of a map. -/
def entryTexts : List (String × Value) → List String
  | [] => []
  | (name, value) :: entries => (Text.quoted name ++ ": " ++ value.text) :: entryTexts entries

end

/-! ## Equality -/

mutual

/-- Are two values the same, type and all?  Floats are compared as numbers. -/
def same : Value → Value → Bool
  | .int a, .int b => a == b
  | .float a, .float b => Binary64.same a b
  | .str a, .str b => a == b
  | .bool a, .bool b => a == b
  | .map a, .map b => sameEntries a b
  | _, _ => false

/-- Do two maps have the same names with the same values? -/
def sameEntries : List (String × Value) → List (String × Value) → Bool
  | [], [] => true
  | (a, x) :: as, (b, y) :: bs => a == b && same x y && sameEntries as bs
  | _, _ => false

end

end Value

end RuleSieve.Predicate
