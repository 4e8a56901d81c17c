/-
  What follows a backslash in a pattern.
-/
import RuleSieve.Regex.Flags
import RuleSieve.Regex.Property
import RuleSieve.Number.Decimal
import RuleSieve.Text.Find

namespace RuleSieve.Regex

open Text (dropStart? hexDigit? hexNumber)

/-- What an escape or a plain character stands for. -/
inductive Atom where
  | literal (c : Char)
  | set (s : CharSet)
  | look (condition : Look)
  deriving Repr

/-- A pattern that is not well formed. -/
def malformed {α : Type} (reason : String) : Except PatternError α := .error (.malformed reason)

/-! ## Characters by number -/

/-- The text up to the next closing brace, and what follows it. -/
def untilBrace (verbose : Bool) : (inComment : Bool) → List Char → Option (List Char × List Char)
  | _, [] => none
  | true, c :: cs => untilBrace verbose (c != '\n') cs
  | false, c :: cs =>
    if c = '\x7d' then some ([], cs)
    else if verbose && Text.isBlank c then untilBrace verbose false cs
    else if verbose && c = '#' then untilBrace verbose true cs
    else (untilBrace verbose false cs).map fun (inside, rest) => (c :: inside, rest)

/-- The character that hexadecimal digits number. -/
def charOfHex (digits : List Char) : Except PatternError Char :=
  let n := hexNumber digits
  if digits.isEmpty || !digits.all (fun c => (hexDigit? c).isSome) then
    malformed "a number needs hexadecimal digits"
  else if n.isValidChar then .ok (Char.ofNat n)
  else malformed "the number is no character"

/-- Exactly `count` characters, with what may be skipped between them left out. -/
def takeExactly (flags : Flags) :
    (count : Nat) → List Char → Except PatternError (List Char × List Char)
  | 0, cs => .ok ([], cs)
  | _ + 1, [] => malformed "the escape is not finished"
  | count + 1, c :: cs => do
    let (more, rest) ← takeExactly flags count (if count = 0 then cs else flags.skip cs)
    return (c :: more, rest)

/-- A character by number: a fixed count of digits, or digits in braces. -/
def readHex (flags : Flags) (letter : Char) (cs : List Char) :
    Except PatternError (Atom × List Char) :=
  match flags.skip cs with
  | '\x7b' :: cs =>
    match untilBrace flags.verbose false cs with
    | none => malformed "the brace is not closed"
    | some (digits, rest) => (charOfHex digits).map fun c => (.literal c, rest)
  | cs => do
    let count := if letter = 'x' then 2 else if letter = 'u' then 4 else 8
    let (digits, rest) ← takeExactly flags count cs
    let c ← charOfHex digits
    if letter = 'x' && !flags.unicode && 128 ≤ c.toNat then
      malformed "the byte is no character"
    else return (.literal c, rest)

/-! ## Properties -/

/-- What stands before the first occurrence of `sep`, and what after it. -/
def cutOn (sep : List Char) : List Char → Option (List Char × List Char)
  | [] => none
  | c :: cs =>
    match dropStart? sep (c :: cs) with
    | some after => some ([], after)
    | none => (cutOn sep cs).map fun (before, after) => (c :: before, after)

/-- The set that the inside of a property escape names, and whether it is to be negated. -/
def namedProperty (inside : List Char) : Except PatternError (CharSet × Bool) :=
  let found :=
    match cutOn ['!', '='] inside with
    | some (name, value) => (valueSet? name value).map (·, true)
    | none =>
      match cutOn [':'] inside <|> cutOn ['='] inside with
      | some (name, value) => (valueSet? name value).map (·, false)
      | none => (propertySet? inside).map (·, false)
  match found with
  | some property => .ok property
  | none => malformed "the property is not known"

/-- The inside of a property escape: a name in braces, or one letter. -/
def readPropertyName (flags : Flags) (cs : List Char) :
    Except PatternError (List Char × List Char) :=
  match flags.skip cs with
  | [] => malformed "the escape is not finished"
  | '\x7b' :: cs =>
    match untilBrace flags.verbose false cs with
    | none => malformed "the brace is not closed"
    | some found => .ok found
  | c :: cs => if c = '\\' then malformed "the property has no name" else .ok ([c], cs)

/-- The set of a property. -/
def readProperty (flags : Flags) (negated : Bool) (cs : List Char) :
    Except PatternError (Atom × List Char) :=
  if !flags.unicode then malformed "properties need Unicode"
  else do
    let (inside, rest) ← readPropertyName flags cs
    let (set, flipped) ← namedProperty inside
    return (.set (.negateIf (negated != flipped) (flags.leaf set)), rest)

/-! ## Word boundaries -/

/-- The kind of boundary that a word in braces asks for. -/
def edgeNamed? (name : List Char) : Option Edge :=
  match String.ofList name with
  | "start" => some .starts
  | "end" => some .ends
  | "start-half" => some .halfStarts
  | "end-half" => some .halfEnds
  | _ => none

/-- Can the character stand in the name of a kind of boundary? -/
def isEdgeLetter (c : Char) : Bool :=
  ('a' ≤ c && c ≤ 'z') || ('A' ≤ c && c ≤ 'Z') || c == '-'

/-- A boundary, with its kind in braces after it.  Braces that do not begin with a letter are left
    for the count of a repetition. -/
def readBoundary (flags : Flags) (cs : List Char) : Except PatternError (Atom × List Char) :=
  let plain : Except PatternError (Atom × List Char) := .ok (.look (.word .any flags.unicode), cs)
  match cs with
  | '\x7b' :: after =>
    match flags.skip after with
    | [] => malformed "the brace is not closed"
    | c :: _ =>
      if !isEdgeLetter c then plain
      else
        match untilBrace flags.verbose false after with
        | none => malformed "the brace is not closed"
        | some (name, rest) =>
          match edgeNamed? name with
          | some edge => .ok (.look (.word edge flags.unicode), rest)
          | none => malformed "the kind of boundary is not known"
  | _ => plain

/-! ## Escapes -/

/-- ASCII characters other than letters, digits and angle brackets stand for themselves after a
    backslash. -/
def isEscapable (c : Char) : Bool :=
  c.toNat < 128 && !c.isAlphanum && c != '<' && c != '>'

/-- What a letter or an angle bracket after a backslash stands for. -/
def letterEscape (flags : Flags) : Char → Except PatternError Atom
  | 'a' => .ok (.literal '\x07')
  | 'f' => .ok (.literal '\x0C')
  | 't' => .ok (.literal '\t')
  | 'n' => .ok (.literal '\n')
  | 'r' => .ok (.literal '\r')
  | 'v' => .ok (.literal '\x0B')
  | 'A' => .ok (.look .textStart)
  | 'z' => .ok (.look .textEnd)
  | 'B' => .ok (.look (.word .none flags.unicode))
  | '<' => .ok (.look (.word .starts flags.unicode))
  | '>' => .ok (.look (.word .ends flags.unicode))
  | _ => malformed "the escape is not known"

/-- What follows a backslash. -/
def readEscape (flags : Flags) : List Char → Except PatternError (Atom × List Char)
  | [] => malformed "the escape is not finished"
  | c :: cs =>
    if Decimal.isDigit c then malformed "references to groups are not supported"
    else if c = 'x' || c = 'u' || c = 'U' then readHex flags c cs
    else if c = 'p' || c = 'P' then readProperty flags (c == 'P') cs
    else if c = 'd' || c = 's' || c = 'w' then .ok (.set (flags.shorthand c), cs)
    else if c = 'D' || c = 'S' || c = 'W' then do
      return (.set (← flags.negate true (flags.shorthand (Char.ofNat (c.toNat + 32)))), cs)
    else if c = 'b' then readBoundary flags cs
    else if isEscapable c then .ok (.literal c, cs)
    else do return (← letterEscape flags c, cs)

end RuleSieve.Regex
