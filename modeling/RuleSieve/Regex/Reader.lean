/-
  Reading a pattern.

  The reader keeps the branch it is in and a stack of the groups that are open around it.  A group
  that closes becomes one piece of the branch around it, and the flags of that branch come back into
  force.
-/
import RuleSieve.Regex.ClassReader

namespace RuleSieve.Regex

open Text (dropStart?)

/-- A part of a branch: the expression, how deeply it is nested, and whether it can be repeated. -/
structure Piece where
  node : Node
  nest : Nat
  repeatable : Bool
  deriving Repr

/-- A piece that is not nested. -/
def Piece.leaf (node : Node) : Piece := ⟨node, 0, true⟩

/-- The depth of several pieces in a row or side by side. -/
def Piece.joined (pieces : List Piece) (build : List Node → Node) : Piece :=
  match pieces with
  | [] => .leaf .empty
  | [piece] => piece
  | _ => ⟨build (pieces.map (·.node)), 1 + (pieces.map (·.nest)).foldl max 0, true⟩

/-- The inside of a group: the flags in force, the branches that are finished and the pieces of the
    branch being read, each with the latest first. -/
structure Level where
  flags : Flags
  branches : List Piece
  pieces : List Piece
  deriving Repr

namespace Level

/-- A group in which nothing has been read. -/
def fresh (flags : Flags) : Level := ⟨flags, [], []⟩

/-- The level after one more piece. -/
def push (level : Level) (piece : Piece) : Level := { level with pieces := piece :: level.pieces }

/-- The branch being read. -/
def branch (level : Level) : Piece := .joined level.pieces.reverse .sequence

/-- The level after the bar that ends a branch. -/
def nextBranch (level : Level) : Level :=
  { level with branches := level.branch :: level.branches, pieces := [] }

/-- Everything between the ends of the group. -/
def body (level : Level) : Piece := .joined (level.branch :: level.branches).reverse .oneOf

end Level

/-- The state of reading: the innermost group, the groups around it with the number under which each
    inner one is remembered, and the names given so far. -/
structure ReaderState where
  level : Level
  outer : List (Option Nat × Level)
  captures : Nat
  names : List (String × Nat)
  deriving Repr

namespace ReaderState

/-- Nothing has been read. -/
def start : ReaderState := ⟨.fresh .start, [], 0, []⟩

/-- The flags in force. -/
def flags (st : ReaderState) : Flags := st.level.flags

/-- The state after one more piece. -/
def push (st : ReaderState) (piece : Piece) : ReaderState := { st with level := st.level.push piece }

/-- Opens a group under the given flags. -/
def openGroup (st : ReaderState) (index : Option Nat) (flags : Flags) : ReaderState :=
  { st with level := .fresh flags, outer := (index, st.level) :: st.outer }

/-- Opens a group that is remembered under the next number. -/
def openCapture (st : ReaderState) : ReaderState :=
  let st := { st with captures := st.captures + 1 }
  st.openGroup (some st.captures) st.flags

/-- Closes the innermost group. -/
def closeGroup (st : ReaderState) : Except PatternError ReaderState :=
  match st.outer with
  | [] => malformed "the group is not open"
  | (index, level) :: outer =>
    let body := st.level.body
    let node := index.elim body.node fun index => .capture index body.node
    .ok { st with level := level.push ⟨node, 1 + body.nest, true⟩, outer := outer }

/-- Repeats the last piece. -/
def repeatLast (st : ReaderState) (min : Nat) (max : Option Nat) (lazy : Bool) :
    Except PatternError ReaderState :=
  match st.level.pieces with
  | piece :: pieces =>
    if !piece.repeatable then malformed "there is nothing to repeat"
    else
      let node := piece.node.times min max (lazy == st.flags.swapGreed)
      .ok { st with level := { st.level with pieces := ⟨node, 1 + piece.nest, true⟩ :: pieces } }
  | [] => malformed "there is nothing to repeat"

end ReaderState

/-! ## Groups -/

/-- Can the character stand in the name of a group? -/
def isNameChar (first : Bool) (c : Char) : Bool :=
  c == '_' || Text.alphabetic.contains c ||
    (!first && (c == '.' || c == '[' || c == ']' || Text.numbers.contains c))

/-- The name of a group, up to the closing angle bracket. -/
def readName (cs : List Char) : Except PatternError (String × List Char) :=
  let name := cs.takeWhile (· != '>')
  match name, cs.dropWhile (· != '>') with
  | _, [] => malformed "the name is not closed"
  | [], _ => malformed "the name is empty"
  | first :: more, _ :: rest =>
    if isNameChar true first && more.all (isNameChar false) then .ok (String.ofList name, rest)
    else malformed "the name has a character that is not allowed"

/-- Flags up to the character that ends them, which stays.  `seen` holds the letters so far, and
    `on` says whether flags are set or cleared. -/
def readFlags (flags : Flags) (seen : List Char) (on : Bool) :
    List Char → Except PatternError (Flags × List Char)
  | [] => malformed "the flags are not closed"
  | c :: cs =>
    if c = ':' || c = ')' then
      if seen.head? = some '-' then malformed "no flag is cleared" else .ok (flags, c :: cs)
    else if seen.contains c then malformed "the flag is given twice"
    else if c = '-' then readFlags flags (c :: seen) false cs
    else
      match flags.set? c on with
      | some flags => readFlags flags (c :: seen) on cs
      | none => malformed "the flag is not known"

/-- What follows an opening parenthesis. -/
def readGroup (st : ReaderState) (cs : List Char) : Except PatternError (ReaderState × List Char) :=
  let cs := st.flags.skip cs
  let starts (s : List Char) : Bool := (dropStart? s cs).isSome
  if starts ['?', '='] || starts ['?', '!'] || starts ['?', '<', '='] || starts ['?', '<', '!'] then
    malformed "looking around is not supported"
  else
    match dropStart? ['?', 'P', '<'] cs <|> dropStart? ['?', '<'] cs with
    | some cs => do
      let (name, rest) ← readName cs
      if st.names.any (·.1 == name) then malformed "the name is given twice"
      else
        let st := st.openCapture
        return ({ st with names := (name, st.captures) :: st.names }, rest)
    | none =>
      match cs with
      | '?' :: cs => do
        let (flags, rest) ← readFlags st.flags [] true cs
        match rest with
        | ')' :: rest =>
          if cs.head? = some ')' then malformed "there is nothing to repeat"
          else
            let st := st.push ⟨.empty, 0, false⟩
            return ({ st with level := { st.level with flags := flags } }, rest)
        | rest => return (st.openGroup none flags, rest.drop 1)
      | cs => .ok (st.openCapture, cs)

/-! ## Repetitions -/

/-- Counts are below this. -/
def countLimit : Nat := 0x100000000

/-- A count, with blanks around it. -/
def readCount? (cs : List Char) : Except PatternError (Option Nat) × List Char :=
  let cs := cs.dropWhile Text.isBlank
  let digits := cs.takeWhile Decimal.isDigit
  let rest := (cs.dropWhile Decimal.isDigit).dropWhile Text.isBlank
  if digits.isEmpty then (.ok none, rest)
  else if Decimal.value digits < countLimit then (.ok (some (Decimal.value digits)), rest)
  else (malformed "the count is too large", rest)

/-- What follows the upper count of a repetition. -/
def afterHigh (low high : Nat) : List Char → Except PatternError ((Nat × Option Nat) × List Char)
  | '\x7d' :: rest =>
    if high < low then malformed "the counts are in the wrong order"
    else .ok ((low, some high), rest)
  | _ => malformed "the repetition is not closed"

/-- What follows the comma of a repetition: an upper count, or none. -/
def afterComma (flags : Flags) (low : Nat) :
    List Char → Except PatternError ((Nat × Option Nat) × List Char)
  | '\x7d' :: rest => .ok ((low, none), rest)
  | cs => do
    let (high, rest) := readCount? cs
    match ← high with
    | some high => afterHigh low high (flags.skip rest)
    | none => malformed "the repetition has no count"

/-- What follows the lower count of a repetition. -/
def afterLow (flags : Flags) (low : Nat) :
    List Char → Except PatternError ((Nat × Option Nat) × List Char)
  | '\x7d' :: rest => .ok ((low, some low), rest)
  | ',' :: rest => afterComma flags low (flags.skip rest)
  | _ => malformed "the repetition is not closed"

/-- The bounds of a repetition, after the opening brace. -/
def readBounds (flags : Flags) (cs : List Char) :
    Except PatternError ((Nat × Option Nat) × List Char) := do
  let (low, rest) := readCount? (flags.skip cs)
  match ← low with
  | some low => afterLow flags low (flags.skip rest)
  | none => malformed "the repetition has no count"

/-- The mark of a lazy repetition, if it is there. -/
def readLazy : List Char → Bool × List Char
  | '?' :: cs => (true, cs)
  | cs => (false, cs)

/-! ## The whole pattern -/

/-- The piece that an atom is. -/
def Flags.piece (flags : Flags) : Atom → Piece
  | .literal c => .leaf (.char (flags.leaf (.single c)))
  | .set s => .leaf (.char s)
  | .look condition => .leaf (.look condition)

/-- Reads the next item of the pattern. -/
def readItem (st : ReaderState) : List Char → Except PatternError (ReaderState × List Char)
  | [] => .ok (st, [])
  | c :: cs =>
    match c with
    | '(' => readGroup st cs
    | ')' => do return (← st.closeGroup, cs)
    | '|' => .ok ({ st with level := st.level.nextBranch }, cs)
    | '[' => do
      let (member, rest) ← readClass st.flags cs
      return (st.push ⟨.char member.set, member.nest, true⟩, rest)
    | '?' => do
      let (lazy, rest) := readLazy cs
      return (← st.repeatLast 0 (some 1) lazy, rest)
    | '*' => do
      let (lazy, rest) := readLazy cs
      return (← st.repeatLast 0 none lazy, rest)
    | '+' => do
      let (lazy, rest) := readLazy cs
      return (← st.repeatLast 1 none lazy, rest)
    | '\x7b' => do
      let ((low, high), rest) ← readBounds st.flags cs
      let (lazy, rest) := readLazy (st.flags.skip rest)
      return (← st.repeatLast low high lazy, rest)
    | '\\' => do
      let (atom, rest) ← readEscape st.flags cs
      return (st.push (st.flags.piece atom), rest)
    | '.' => do return (st.push (.leaf (.char (← st.flags.dot))), cs)
    | '^' => .ok (st.push (.leaf (.look st.flags.lineStart)), cs)
    | '$' => .ok (st.push (.leaf (.look st.flags.lineEnd)), cs)
    | c => .ok (st.push (st.flags.piece (.literal c)), cs)

/-- Reads items to the end of the pattern.  Every item has at least one character, so `fuel` need
    not exceed their number. -/
def readItems : (fuel : Nat) → ReaderState → List Char → Except PatternError ReaderState
  | 0, st, _ => .ok st
  | fuel + 1, st, cs =>
    match st.flags.skip cs with
    | [] => .ok st
    | cs => do
      let (st, rest) ← readItem st cs
      readItems fuel st rest

/-- How deeply a pattern may be nested. -/
def maxNest : Nat := 250

/-- A pattern that has been read: the expression, and the groups that have names. -/
structure Pattern where
  node : Node
  names : List (String × Nat)
  deriving Repr

/-- The pattern that has been read, at its end. -/
def ReaderState.finish (st : ReaderState) : Except PatternError Pattern :=
  let body := st.level.body
  if !st.outer.isEmpty then malformed "the group is not closed"
  else if maxNest < body.nest then malformed "the pattern is nested too deeply"
  else if Node.maxCost < body.node.cost then .error .tooLarge
  else .ok ⟨body.node, st.names⟩

/-- Reads a pattern. -/
def Pattern.read (source : List Char) : Except PatternError Pattern := do
  (← readItems source.length .start source).finish

end RuleSieve.Regex
