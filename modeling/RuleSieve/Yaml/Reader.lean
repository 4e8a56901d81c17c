/-
  Reading YAML.

  The tokens are taken one after the other.  Of the lists and tables that are still open only the
  finished parts are kept, together with what may come next.  Where a part may be left out and the next
  token shows that it is, an empty plain scalar takes its place.

  A text holds at most one document, and the keys of its tables are scalars.
-/
import RuleSieve.Yaml.Lexer

namespace RuleSieve.Yaml

/-! ## Open lists and tables -/

/-- The parts of a list, in reverse. -/
abbrev Items := List Document

/-- The fields of a table, in reverse. -/
abbrev Entries := List (String × Document)

/-- A list or a table that is still open, and where in it the next token stands. -/
inductive Open where
  /-- Between the items of a block; `loose` if it is no further to the right than its key, so that
      nothing marks its end. -/
  | list (loose : Bool) (items : Items)
  /-- After a dash. -/
  | item (loose : Bool) (items : Items)
  /-- Between the fields of a block. -/
  | table (entries : Entries)
  /-- After the mark of a key. -/
  | key (entries : Entries)
  /-- After a key. -/
  | keyed (entries : Entries) (name : String)
  /-- After the colon. -/
  | value (entries : Entries) (name : String)
  /-- Between brackets; `fresh` at the start and after a comma. -/
  | flowList (fresh : Bool) (items : Items)
  | flowTable (fresh : Bool) (entries : Entries)
  /-- After the mark of a key between brackets. -/
  | flowKey (entries : Entries)
  | flowKeyed (entries : Entries) (name : String)
  | flowValue (entries : Entries) (name : String)
  /-- In a list between brackets, after the mark of a key: the item is a table with one field. -/
  | pairKey (items : Items)
  | pairKeyed (items : Items) (name : String)
  | pairValue (items : Items) (name : String)

/-- What is open, the innermost first, and the document once it is there. -/
structure Progress where
  stack : List Open
  document : Option Document

/-- A part that was left out. -/
def omitted : Document := .leaf (.plain "")

/-- The key that a document is, if it is a scalar. -/
def keyText? : Document → Option String
  | .leaf (.exact (.text s)) => some s
  | .leaf (.plain s) => some s
  | _ => none

/-- Puts a part where one is expected. -/
def Open.put? (part : Document) : Open → Option Open
  | .item loose items => some (.list loose (part :: items))
  | .key entries => (keyText? part).map (.keyed entries)
  | .value entries name => some (.table ((name, part) :: entries))
  | .flowList true items => some (.flowList false (part :: items))
  | .flowTable true entries =>
    (keyText? part).map fun name => .flowTable false ((name, omitted) :: entries)
  | .flowKey entries => (keyText? part).map (.flowKeyed entries)
  | .flowValue entries name => some (.flowTable false ((name, part) :: entries))
  | .pairKey items => (keyText? part).map (.pairKeyed items)
  | .pairValue items name => some (.flowList false (.table [(name, part)] :: items))
  | _ => none

/-- Puts a part where one is expected; with nothing open it is the whole document. -/
def Progress.put? (p : Progress) (part : Document) : Option Progress :=
  match p.stack with
  | [] => if p.document.isNone then some ⟨[], some part⟩ else none
  | top :: stack => (top.put? part).map fun top => { p with stack := top :: stack }

/-! ## Parts that are left out -/

/-- Does the token show that the part that is expected is left out? -/
def Open.omits : Open → Token → Bool
  | .item false _, token => (token matches .dash | .closeBlock)
  | .item true _, token => (token matches .dash | .key | .value | .closeBlock)
  | .key _, token | .value .., token => (token matches .key | .value | .closeBlock)
  | .flowKey _, token => (token matches .value | .comma | .closeFlowTable)
  | .flowValue .., token => (token matches .comma | .closeFlowTable)
  | .pairKey _, token => (token matches .value | .comma | .closeFlowList)
  | .pairValue .., token => (token matches .comma | .closeFlowList)
  | _, _ => false

/-- Puts an empty scalar where the token shows that a part is left out. -/
def Progress.fill? (p : Progress) (token : Token) : Option Progress :=
  if p.stack.head?.any (·.omits token) then p.put? omitted else some p

/-- Ends a list that nothing marks the end of, unless the token is the dash of another item. -/
def Progress.endLoose? (p : Progress) (token : Token) : Option Progress :=
  match p.stack with
  | .list true items :: stack =>
    if token matches .dash then some p else { p with stack }.put? (Tree.list items.reverse)
  | _ => some p

/-- Gives a key that has no colon after it an empty value. -/
def Progress.endKey (p : Progress) (token : Token) : Progress :=
  if token matches .value then p
  else
    match p.stack with
    | .keyed entries name :: stack => { p with stack := .table ((name, omitted) :: entries) :: stack }
    | .flowKeyed entries name :: stack =>
      { p with stack := .flowTable false ((name, omitted) :: entries) :: stack }
    | .pairKeyed items name :: stack =>
      { p with stack := .flowList false (.table [(name, omitted)] :: items) :: stack }
    | _ => p

/-! ## Tokens -/

/-- The number of lists and tables that may be open at once. -/
def depthLimit : Nat := 128

/-- Opens a list or a table where a part is expected. -/
def Progress.descend? (p : Progress) (top : Open) : Option Progress :=
  if p.stack.length < depthLimit then some { p with stack := top :: p.stack } else none

/-- Is a part expected? -/
def Progress.expectsPart (p : Progress) : Bool :=
  match p.stack with
  | [] => p.document.isNone
  | top :: _ => (top.put? omitted).isSome

/-- Is a part of a block expected, or between brackets? -/
def Open.inFlow : Open → Bool
  | .flowList .. | .flowTable .. | .flowKey _ | .flowValue .. | .pairKey _ | .pairValue .. => true
  | _ => false

/-- Takes the first token of a part. -/
def Progress.startPart? (p : Progress) (token : Token) : Option Progress :=
  let inFlow := p.stack.head?.any (·.inFlow)
  if !p.expectsPart then none
  else
    match token with
    | .scalar value => p.put? (.leaf value)
    | .openFlowList => p.descend? (.flowList true [])
    | .openFlowTable => p.descend? (.flowTable true [])
    | .openList => if inFlow then none else p.descend? (.list false [])
    | .openTable => if inFlow then none else p.descend? (.table [])
    | .dash =>
      match p.stack with
      | .key _ :: _ | .value .. :: _ => p.descend? (.item true [])
      | _ => none
    | _ => none

/-- Takes a token after all parts before it have ended. -/
def Progress.take? (p : Progress) (token : Token) : Option Progress :=
  match p.stack, token with
  | .list loose items :: stack, .dash => some { p with stack := .item loose items :: stack }
  | .list false items :: stack, .closeBlock => { p with stack }.put? (Tree.list items.reverse)
  | .table entries :: stack, .key => some { p with stack := .key entries :: stack }
  | .table entries :: stack, .closeBlock => { p with stack }.put? (Tree.table entries.reverse)
  | .keyed entries name :: stack, .value => some { p with stack := .value entries name :: stack }
  | .flowList _ items :: stack, .closeFlowList => { p with stack }.put? (Tree.list items.reverse)
  | .flowList false items :: stack, .comma => some { p with stack := .flowList true items :: stack }
  | .flowList true items :: stack, .key => some { p with stack := .pairKey items :: stack }
  | .flowTable _ entries :: stack, .closeFlowTable =>
    { p with stack }.put? (Tree.table entries.reverse)
  | .flowTable false entries :: stack, .comma =>
    some { p with stack := .flowTable true entries :: stack }
  | .flowTable true entries :: stack, .key => some { p with stack := .flowKey entries :: stack }
  | .flowKeyed entries name :: stack, .value =>
    some { p with stack := .flowValue entries name :: stack }
  | .pairKeyed items name :: stack, .value => some { p with stack := .pairValue items name :: stack }
  | _, _ => p.startPart? token

/-- Takes one token. -/
def Progress.step? (p : Progress) (token : Token) : Option Progress := do
  let p ← (← p.fill? token).endLoose? token
  (p.endKey token).take? token

/-! ## The whole text -/

/-- The document that tokens write; none at all write an empty one. -/
def ofTokens? (tokens : List Token) : Option Document := do
  let body := match tokens with
    | .documentStart :: rest => rest
    | rest => rest
  let content := body.takeWhile fun token => !(token matches .documentStart | .documentEnd)
  let rest := body.drop content.length
  if !rest.all (fun token => token matches .documentEnd) then none
  else if content.isEmpty then
    if body.length = tokens.length && !tokens.isEmpty then none else some omitted
  else
    match ← content.foldlM Progress.step? ⟨[], none⟩ with
    | ⟨[], some document⟩ => some document
    | _ => none

/-- The document that a whole text writes. -/
def read? (text : String) : Option Document := (tokens? text.toList).bind ofTokens?

end RuleSieve.Yaml
