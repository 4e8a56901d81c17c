/-
  Data as it is stored in files: leaves, lists and tables.

  What stands at the leaves depends on the notation.  In JSON a leaf says of which kind it is; that of
  a YAML document may leave it open, so trees are generic in their leaves.
-/
import RuleSieve.Dict

namespace RuleSieve

/-- A value without parts. -/
inductive Scalar where
  | null
  | bool (b : Bool)
  | int (n : Int)
  | float (x : Float)
  | text (s : String)
  deriving Repr

/-- Data with leaves in `α`.  The fields of a table stand in the order in which they were written, and
    a name may occur more than once. -/
inductive Tree (α : Type) where
  | leaf (value : α)
  | list (items : List (Tree α))
  | table (fields : List (String × Tree α))
  deriving Repr

instance {α : Type} : Inhabited (Tree α) := ⟨.list []⟩

/-- Data whose leaves are plain values. -/
abbrev Json := Tree Scalar

namespace Tree

variable {α β ε : Type}

mutual

/-- The tree with every leaf replaced, unless one of them has no replacement. -/
def traverse (f : α → Except ε β) : Tree α → Except ε (Tree β)
  | .leaf value => (f value).map .leaf
  | .list items => (traverseItems f items).map .list
  | .table fields => (traverseFields f fields).map .table

/-- The items with every leaf replaced. -/
def traverseItems (f : α → Except ε β) : List (Tree α) → Except ε (List (Tree β))
  | [] => .ok []
  | item :: items => do
    let item ← traverse f item
    return item :: (← traverseItems f items)

/-- The fields with every leaf replaced. -/
def traverseFields (f : α → Except ε β) :
    List (String × Tree α) → Except ε (List (String × Tree β))
  | [] => .ok []
  | (name, value) :: fields => do
    let value ← traverse f value
    return (name, value) :: (← traverseFields f fields)

end

mutual

/-- The tree with every leaf replaced. -/
def map (f : α → β) : Tree α → Tree β
  | .leaf value => .leaf (f value)
  | .list items => .list (mapItems f items)
  | .table fields => .table (mapFields f fields)

/-- The items with every leaf replaced. -/
def mapItems (f : α → β) : List (Tree α) → List (Tree β)
  | [] => []
  | item :: items => map f item :: mapItems f items

/-- The fields with every leaf replaced. -/
def mapFields (f : α → β) : List (String × Tree α) → List (String × Tree β)
  | [] => []
  | (name, value) :: fields => (name, map f value) :: mapFields f fields

end

mutual

/-- The number of levels of a tree. -/
def depth : Tree α → Nat
  | .leaf _ => 1
  | .list items => depthOfItems items + 1
  | .table fields => depthOfFields fields + 1

/-- The number of levels of the deepest item. -/
def depthOfItems : List (Tree α) → Nat
  | [] => 0
  | item :: items => max (depth item) (depthOfItems items)

/-- The number of levels of the deepest field. -/
def depthOfFields : List (String × Tree α) → Nat
  | [] => 0
  | (_, value) :: fields => max (depth value) (depthOfFields fields)

end

mutual

/-- The tree with the fields of every table sorted by name; of several with one name the last stays. -/
def sorted : Tree α → Tree α
  | .leaf value => .leaf value
  | .list items => .list (sortedItems items)
  | .table fields => .table (Dict.ofList (sortedFields fields))

/-- The items, each of them sorted. -/
def sortedItems : List (Tree α) → List (Tree α)
  | [] => []
  | item :: items => sorted item :: sortedItems items

/-- The fields, each of them sorted, in the order in which they came. -/
def sortedFields : List (String × Tree α) → List (String × Tree α)
  | [] => []
  | (name, value) :: fields => (name, sorted value) :: sortedFields fields

end

end Tree

/-! ## Documents -/

/-- A leaf of a document.  One that is written plainly means what is wanted where it stands: a plain `5`
    is a text where a text is wanted and a number where a number is. -/
inductive Written where
  | exact (value : Scalar)
  | plain (text : String)
  deriving Repr

/-- Data as a file holds it. -/
abbrev Document := Tree Written

/-! ## Plain values -/

namespace Json

/-- The missing value. -/
def null : Json := .leaf .null

/-- A truth value. -/
def bool (b : Bool) : Json := .leaf (.bool b)

/-- A natural number. -/
def nat (n : Nat) : Json := .leaf (.int n)

/-- A text. -/
def text (s : String) : Json := .leaf (.text s)

/-- A list of texts. -/
def texts (items : List String) : Json := .list (items.map text)

/-- A table whose names are not known beforehand. -/
def dict {α : Type} (encode : α → Json) (d : Dict α) : Json :=
  .table (d.map fun (name, value) => (name, encode value))

/-- The table of the fields that are there. -/
def record (fields : List (String × Option Json)) : Json :=
  .table (fields.filterMap fun (name, value) => value.map fun v => (name, v))

end Json

end RuleSieve
