/-
  Splitting a YAML text into tokens.

  Brackets that open and close lists and tables are tokens of their own.  Blocks have no brackets in the
  text; they are opened where an entry stands further to the right than what encloses it, and closed
  where a line starts further to the left.  Whether a scalar is a key is known only when its colon is
  found, so the place where a key may have started is kept until then.

  Anchors, tags and directives are not read.
-/
import RuleSieve.Tree
import RuleSieve.Yaml.Scalar

namespace RuleSieve.Yaml

/-- The tokens of a YAML text. -/
inductive Token where
  | openList
  | openTable
  /-- Ends a block, of either kind. -/
  | closeBlock
  | openFlowList
  | closeFlowList
  | openFlowTable
  | closeFlowTable
  /-- The dash before an item. -/
  | dash
  | comma
  /-- What follows is a key. -/
  | key
  /-- What follows is the value of a key. -/
  | value
  | scalar (value : Written)
  | documentStart
  | documentEnd
  deriving Repr

/-- A place where a key may have started. -/
structure PossibleKey where
  index : Nat
  line : Nat
  column : Nat
  /-- The number of tokens before it. -/
  before : Nat
  /-- Can nothing but a key stand here? -/
  required : Bool

/-- What is known between two tokens. -/
structure Lexing where
  index : Nat
  line : Nat
  column : Nat
  /-- How many brackets are open? -/
  flow : Nat
  /-- The column of the innermost block, and those of the blocks around it. -/
  indent : Int
  outer : List Int
  /-- May a key start here? -/
  keyAllowed : Bool
  /-- The key that may have started, within the innermost brackets and around each of them. -/
  possible : Option PossibleKey
  outerPossible : List (Option PossibleKey)
  /-- The tokens so far, the last one first. -/
  tokens : List Token

namespace Lexing

/-- Before the first character. -/
def start : Lexing := ⟨0, 0, 0, 0, -1, [], true, none, [], []⟩

/-- Passes a character. -/
def pass (s : Lexing) (c : Char) : Lexing :=
  if isBreak c then { s with index := s.index + 1, line := s.line + 1, column := 0 }
  else { s with index := s.index + 1, column := s.column + 1 }

/-- Adds a token. -/
def push (s : Lexing) (token : Token) : Lexing := { s with tokens := token :: s.tokens }

/-- Adds a token that comes after the first `before` ones. -/
def pushAt (s : Lexing) (before : Nat) (token : Token) : Lexing :=
  let later := s.tokens.length - before
  { s with tokens := s.tokens.take later ++ token :: s.tokens.drop later }

/-! ## Blocks -/

/-- Opens a block at a column further to the right than the innermost one. -/
def openBlock (s : Lexing) (column before : Nat) (token : Token) : Lexing :=
  if s.flow = 0 && s.indent < column then
    { s.pushAt before token with indent := column, outer := s.indent :: s.outer }
  else s

/-- Closes the blocks that stand further to the right than a column, given those around the innermost
    one. -/
def closeFrom (s : Lexing) (column : Int) : List Int → Lexing
  | [] => s
  | around :: more =>
    if column < s.indent then
      closeFrom { s.push .closeBlock with indent := around, outer := more } column more
    else s

/-- Closes the blocks that stand further to the right than a column. -/
def closeBlocks (s : Lexing) (column : Int) : Lexing :=
  if s.flow = 0 then s.closeFrom column s.outer else s

/-! ## Keys -/

/-- How far a key may be from its colon. -/
def keyReach : Nat := 1024

/-- Is it too late for a key to get its colon? -/
def isStale (s : Lexing) (key : PossibleKey) : Bool :=
  key.line < s.line || key.index + keyReach < s.index

/-- Forgets a key that may have started, unless it is too late to do without it. -/
def forget? (key : Option PossibleKey) : Option (Option PossibleKey) :=
  if key.any (·.required) then none else some none

/-- Forgets the keys that can get no colon any more. -/
def dropStale? (s : Lexing) : Option Lexing := do
  let check (key : Option PossibleKey) := if key.any s.isStale then forget? key else some key
  return { s with possible := ← check s.possible, outerPossible := ← s.outerPossible.mapM check }

/-- Forgets the key that may have started within the innermost brackets. -/
def dropKey? (s : Lexing) : Option Lexing := do
  return { s with possible := ← forget? s.possible }

/-- Keeps this place as one where a key may start. -/
def keepKey? (s : Lexing) : Option Lexing :=
  if s.keyAllowed then do
    let s ← s.dropKey?
    let required := s.flow = 0 && s.indent = s.column
    return { s with possible := some ⟨s.index, s.line, s.column, s.tokens.length, required⟩ }
  else some s

/-! ## Tokens -/

/-- A mark that separates documents. -/
def documentMark? (s : Lexing) (token : Token) : Option Lexing := do
  let s ← (s.closeBlocks (-1)).dropKey?
  return { s with keyAllowed := false }.push token

/-- An opening bracket. -/
def openFlow? (s : Lexing) (token : Token) : Option Lexing := do
  let s ← s.keepKey?
  return { s with
    flow := s.flow + 1, keyAllowed := true
    possible := none, outerPossible := s.possible :: s.outerPossible }.push token

/-- A closing bracket. -/
def closeFlow? (s : Lexing) (token : Token) : Option Lexing := do
  let s ← s.dropKey?
  let s := { s with keyAllowed := false }.push token
  match s.outerPossible with
  | [] => some s
  | key :: keys => some { s with flow := s.flow - 1, possible := key, outerPossible := keys }

/-- A comma between brackets. -/
def comma? (s : Lexing) : Option Lexing := do
  let s ← s.dropKey?
  return { s with keyAllowed := true }.push .comma

/-- The dash of an item. -/
def dash? (s : Lexing) : Option Lexing :=
  if s.flow = 0 && !s.keyAllowed then none
  else do
    let s ← (s.openBlock s.column s.tokens.length .openList).dropKey?
    return { s with keyAllowed := true }.push .dash

/-- The mark of a key. -/
def keyMark? (s : Lexing) : Option Lexing :=
  if s.flow = 0 && !s.keyAllowed then none
  else do
    let s ← (s.openBlock s.column s.tokens.length .openTable).dropKey?
    return { s with keyAllowed := s.flow = 0 }.push .key

/-- The colon after a key. -/
def colon? (s : Lexing) : Option Lexing :=
  match s.possible with
  | some key =>
    let s := (s.pushAt key.before .key).openBlock key.column key.before .openTable
    some ({ s with possible := none, keyAllowed := false }.push .value)
  | none =>
    if s.flow = 0 && !s.keyAllowed then none
    else
      let s := s.openBlock s.column s.tokens.length .openTable
      some ({ s with keyAllowed := s.flow = 0 }.push .value)

/-- A scalar that may be a key. -/
def scalar? (s : Lexing) (value : Written) : Option Lexing := do
  let s ← s.keepKey?
  return { s with keyAllowed := false }.push (.scalar value)

/-- A scalar that is written as a block. -/
def block? (s : Lexing) (value : List Char) : Option Lexing := do
  let s ← s.dropKey?
  return { s with keyAllowed := true }.push (.scalar (.exact (.text (String.ofList value))))

/-! ## Reading tokens -/

/-- Can a plain scalar start with the character? -/
def startsPlain (s : Lexing) (c : Char) (cs : List Char) : Bool :=
  !isGap c &&
    (!"-?:,[]\x7b\x7d#&*!|>'\"%@\x60".toList.contains c ||
      (c == '-' && !cs.head?.any isBlank) ||
      (s.flow == 0 && (c == '?' || c == ':') && !endsWord cs))

/-- A plain scalar, and how many characters after the first one it takes with the gap behind it.  A
    gap with a line break makes room for a key. -/
def plain? (s : Lexing) (c : Char) (cs : List Char) : Option (Lexing × Nat) := do
  let place : PlainPlace := ⟨s.flow ≠ 0, s.indent + 1⟩
  let (value, rest, gap) ← plainFrom? place [] s.column (c :: cs)
  let s ← s.scalar? (.plain (String.ofList value))
  return ({ s with keyAllowed := gap.any isBreak }, cs.length - rest.length)

/-- A scalar in quotes, and how many characters after the opening quote it takes. -/
def quoted? (s : Lexing) (cs : List Char) (read : Option (List Char × List Char)) :
    Option (Lexing × Nat) := do
  let (value, rest) ← read
  let s ← s.scalar? (.exact (.text (String.ofList value)))
  return (s, cs.length - rest.length)

/-- The token that begins with the character, and how many characters after it belong to it. -/
def token? (s : Lexing) (c : Char) (cs : List Char) : Option (Lexing × Nat) :=
  let alone (next : Option Lexing) : Option (Lexing × Nat) := next.map (·, 0)
  if s.column = 0 && c = '%' then none
  else if s.column = 0 && beginsDocumentMark (c :: cs) then
    (s.documentMark? (if c = '-' then .documentStart else .documentEnd)).map (·, 2)
  else if c = '[' then alone (s.openFlow? .openFlowList)
  else if c = '\x7b' then alone (s.openFlow? .openFlowTable)
  else if c = ']' then alone (s.closeFlow? .closeFlowList)
  else if c = '\x7d' then alone (s.closeFlow? .closeFlowTable)
  else if c = ',' then alone s.comma?
  else if c = '-' && endsWord cs then alone s.dash?
  else if c = '?' && (s.flow ≠ 0 || endsWord cs) then alone s.keyMark?
  else if c = ':' && (s.flow ≠ 0 || endsWord cs) then alone s.colon?
  else if (c = '|' || c = '>') && s.flow = 0 then do
    let (value, count) ← readBlock? (c == '>') s.indent cs
    (s.block? value).map (·, count)
  else if c = '\'' then s.quoted? cs (singleQuotedFrom? .none 0 cs)
  else if c = '"' then s.quoted? cs (doubleQuotedFrom? .none 0 cs)
  else if s.startsPlain c cs then s.plain? c cs
  else none

/-- The tokens at the end of the text. -/
def finish? (s : Lexing) : Option (List Token) := do
  let s ← ({ s with column := 0, line := s.line + 1 }.closeBlocks (-1)).dropKey?
  return s.tokens.reverse

/-- Is the character passed over between tokens? -/
def isSpace (s : Lexing) (c : Char) : Bool := c == ' ' || (c == '\t' && (s.flow ≠ 0 || !s.keyAllowed))

/-- The tokens of the text, after its first `skip` characters; `comment` if it begins in a comment. -/
def tokensFrom? (s : Lexing) (skip : Nat) (comment : Bool) : List Char → Option (List Token)
  | [] => s.finish?
  | c :: cs =>
    if skip ≠ 0 then tokensFrom? (s.pass c) (skip - 1) false cs
    else if isBreak c then
      tokensFrom? { s.pass c with keyAllowed := s.flow = 0 || s.keyAllowed } 0 false cs
    else if comment || c = '#' then tokensFrom? (s.pass c) 0 true cs
    else if s.isSpace c then tokensFrom? (s.pass c) 0 false cs
    else do
      let s ← s.dropStale?
      let (s, count) ← (s.closeBlocks s.column).token? c cs
      tokensFrom? (s.pass c) count false cs

end Lexing

/-! ## The whole text -/

/-- Can the character stand in a text at all? -/
def isPrintable (c : Char) : Bool :=
  let n := c.toNat
  n == 0x9 || n == 0xA || n == 0xD || (0x20 ≤ n && n ≤ 0x7E) || n == 0x85 ||
    (0xA0 ≤ n && n ≤ 0xD7FF) || (0xE000 ≤ n && n ≤ 0xFFFD) || 0x10000 ≤ n

/-- The text with all the usual line breaks written as line feeds. -/
def unifyBreaks : List Char → List Char
  | '\r' :: '\n' :: cs => '\n' :: unifyBreaks cs
  | c :: cs => (if c = '\r' || c = '\x85' then '\n' else c) :: unifyBreaks cs
  | [] => []

/-- The tokens of a text.  A mark of the byte order at its start is passed over. -/
def tokens? (text : List Char) : Option (List Token) :=
  let text := if text.head? = some '\uFEFF' then text.drop 1 else text
  if text.all isPrintable then Lexing.start.tokensFrom? 0 false (unifyBreaks text) else none

end RuleSieve.Yaml
