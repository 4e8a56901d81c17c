/-
  Tables sorted by name, and sorted sets of names.

  A table is a list of pairs whose names increase; names are ordered character by character.
-/
namespace RuleSieve

/-- A table from names to values. -/
abbrev Dict (α : Type) := List (String × α)

namespace Dict

variable {α : Type}

/-- The value under a name. -/
def find? (name : String) : Dict α → Option α
  | [] => none
  | (key, value) :: rest => if name = key then some value else find? name rest

/-- Is there a value under the name? -/
def has (name : String) (d : Dict α) : Bool := (find? name d).isSome

/-- The table with the value under a name replaced by what `change` makes of it; a name that is new
    is put at its place. -/
def alter (name : String) (change : Option α → α) : Dict α → Dict α
  | [] => [(name, change none)]
  | (key, value) :: rest =>
    if name = key then (key, change (some value)) :: rest
    else if name < key then (name, change none) :: (key, value) :: rest
    else (key, value) :: alter name change rest

/-- The table with the value put under the name. -/
def insert (name : String) (value : α) : Dict α → Dict α := alter name fun _ => value

/-- The table of several pairs; of two values under one name the later one stays. -/
def ofList (pairs : List (String × α)) : Dict α :=
  pairs.foldl (fun d (name, value) => insert name value d) []

/-- The names in order. -/
def names (d : Dict α) : List String := d.map (·.1)

end Dict

/-! ## Sets of names -/

/-- The set with one more name. -/
def insertName (name : String) : List String → List String
  | [] => [name]
  | key :: rest =>
    if name = key then key :: rest
    else if name < key then name :: key :: rest
    else key :: insertName name rest

/-- The sorted set of some names. -/
def nameSet (names : List String) : List String := names.foldl (fun set name => insertName name set) []

/-- The names without repetitions, each where it occurs first. -/
def distinctNames (names : List String) : List String :=
  names.foldl (fun seen name => if seen.contains name then seen else seen ++ [name]) []

end RuleSieve
