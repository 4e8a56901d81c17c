/-
  Reading JSON.

  The tokens are taken one after the other.  Of the lists and tables that are still open only the
  finished parts are kept, so reading needs no more than one step for each token.
-/
import RuleSieve.Json.Lexer

namespace RuleSieve.Json

/-- A list or a table that is still open, with its parts in reverse; a table also knows the name of the
    field that is being read. -/
inductive Open where
  | list (items : List Json)
  | table (fields : List (String × Json)) (name : String)

/-- What comes next. -/
inductive Expected where
  /-- A value; `first` if the list that was just opened may be closed instead. -/
  | value (first : Bool)
  /-- The name of a field; `first` if the table that was just opened may be closed instead. -/
  | name (fields : List (String × Json)) (first : Bool)
  /-- The colon after a name. -/
  | colon (fields : List (String × Json)) (name : String)
  /-- The value has ended. -/
  | done (value : Json)

/-- The state of reading: what is open, the innermost first, and what is expected. -/
structure Progress where
  stack : List Open
  expected : Expected

/-- The number of lists and tables that may be open at once. -/
def depthLimit : Nat := 127

/-- Takes a token where a value may start. -/
def startValue? (stack : List Open) (token : Token) : Option Progress :=
  let roomy := stack.length < depthLimit
  match token with
  | .scalar value => some ⟨stack, .done (.leaf value)⟩
  | .openList => if roomy then some ⟨.list [] :: stack, .value true⟩ else none
  | .openTable => if roomy then some ⟨stack, .name [] true⟩ else none
  | _ => none

/-- Takes one token. -/
def Progress.step? (p : Progress) (token : Token) : Option Progress :=
  match p.expected, p.stack, token with
  | .value true, .list [] :: stack, .closeList => some ⟨stack, .done (.list [])⟩
  | .value _, stack, token => startValue? stack token
  | .name fields _, stack, .scalar (.text name) => some ⟨stack, .colon fields name⟩
  | .name [] true, stack, .closeTable => some ⟨stack, .done (.table [])⟩
  | .colon fields name, stack, .colon => some ⟨.table fields name :: stack, .value false⟩
  | .done value, .list items :: stack, .comma =>
    some ⟨.list (value :: items) :: stack, .value false⟩
  | .done value, .list items :: stack, .closeList =>
    some ⟨stack, .done (.list (value :: items).reverse)⟩
  | .done value, .table fields name :: stack, .comma =>
    some ⟨stack, .name ((name, value) :: fields) false⟩
  | .done value, .table fields name :: stack, .closeTable =>
    some ⟨stack, .done (.table ((name, value) :: fields).reverse)⟩
  | _, _, _ => none

/-- The value that tokens write. -/
def ofTokens? (tokens : List Token) : Option Json := do
  match ← tokens.foldlM Progress.step? ⟨[], .value false⟩ with
  | ⟨[], .done value⟩ => some value
  | _ => none

/-- The value that a whole text writes. -/
def read? (text : String) : Option Json := (tokens? text.toList).bind ofTokens?

end RuleSieve.Json
