/-
  Splitting a source into tokens.

  The reader walks through the source once.  At the start of a token it decides what the token is and
  how many characters after the first one belong to it, and passes over those.
-/
import RuleSieve.Predicate.Error
import RuleSieve.Number.Reading
import RuleSieve.Text.Blank

namespace RuleSieve.Predicate

open Decimal (isDigit)

/-! ## Numbers -/

/-- Digits may be separated by underscores. -/
def isDigitOrMark (c : Char) : Bool := isDigit c || c == '_'

/-- The point and the digits after it, if a digit follows the point at once. -/
def fractionLength : List Char → Nat
  | '.' :: c :: cs => if isDigit c then 1 + ((c :: cs).takeWhile isDigitOrMark).length else 0
  | _ => 0

/-- The mark, the sign and the digits of an exponent, if a digit follows the mark or the sign. -/
def exponentLength : List Char → Nat
  | mark :: cs =>
    if mark = 'e' || mark = 'E' then
      let sign := match cs with
        | c :: _ => if c = '+' || c = '-' then 1 else 0
        | [] => 0
      match cs.drop sign with
      | c :: more =>
        if isDigit c then 1 + sign + ((c :: more).takeWhile isDigitOrMark).length else 0
      | [] => 0
    else 0
  | [] => 0

/-- The number that a text begins with, and how many characters it has. -/
def readNumber (offset : Nat) (cs : List Char) : Except Error (Token × Nat) :=
  let whole := (cs.takeWhile isDigitOrMark).length
  let fraction := fractionLength (cs.drop whole)
  let exponent := exponentLength (cs.drop (whole + fraction))
  let digits := (cs.take (whole + fraction + exponent)).filter (· != '_')
  if fraction + exponent = 0 then
    if Decimal.value digits < Word.half then
      .ok (.int (Int64.ofNat (Decimal.value digits)), whole)
    else .error (.illFormed offset (.integerTooLarge (String.ofList digits)))
  else
    .ok (.float ((Binary64.read? digits).getD Binary64.nan), whole + fraction + exponent)

/-! ## Strings and names -/

/-- What a character after a backslash stands for. -/
def unescape : Char → Char
  | 'n' => '\n'
  | 't' => '\t'
  | 'r' => '\r'
  | c => c

/-- The value of a string after its opening quote, and how many characters it has with the closing
    one. -/
def readString (quote : Char) : List Char → Option (List Char × Nat)
  | [] => none
  | c :: cs =>
    if c = quote then some ([], 1)
    else
      match c, cs with
      | '\\', [] => none
      | '\\', escaped :: cs =>
        (readString quote cs).map fun (value, count) => (unescape escaped :: value, count + 2)
      | c, cs => (readString quote cs).map fun (value, count) => (c :: value, count + 1)

/-- Can the character stand in a name? -/
def isNameChar (c : Char) : Bool := c.isAlphanum || c == '_'

/-- The token of a word: a keyword or a name. -/
def wordToken (word : List Char) : Token :=
  match String.ofList word with
  | "and" => .and
  | "or" => .or
  | "not" => .not
  | "in" => .within
  | "True" | "true" => .true
  | "False" | "false" => .false
  | name => .ident name

/-- A metavariable after its dollar sign, and how many characters follow the sign. -/
def readMetavariable (offset : Nat) (cs : List Char) : Except Error (Token × Nat) :=
  let dots := if ['.', '.', '.'].isPrefixOf cs then 3 else 0
  let name := (cs.drop dots).takeWhile isNameChar
  if name.isEmpty then .error (.illFormed offset .unnamedMetavariable)
  else .ok (.ident (String.ofList ('$' :: cs.take (dots + name.length))), dots + name.length)

/-! ## Symbols -/

/-- Symbols of two characters. -/
def doubleSymbol? : Char → Char → Option Token
  | '&', '&' => some .and
  | '|', '|' => some .or
  | '=', '=' => some .equal
  | '=', '~' => some .tilde
  | '!', '=' => some .notEqual
  | '<', '=' => some .lessEqual
  | '>', '=' => some .greaterEqual
  | '/', '/' => some .doubleSlash
  | _, _ => none

/-- Symbols of one character. -/
def symbol? : Char → Option Token
  | '!' => some .not
  | '<' => some .less
  | '>' => some .greater
  | '+' => some .plus
  | '-' => some .minus
  | '*' => some .star
  | '/' => some .slash
  | '%' => some .percent
  | '(' => some .leftParen
  | ')' => some .rightParen
  | '[' => some .leftBracket
  | ']' => some .rightBracket
  | ',' => some .comma
  | '.' => some .dot
  | _ => none

/-- The symbol that a character begins, and how many characters follow it. -/
def readSymbol (offset : Nat) (c : Char) (cs : List Char) : Except Error (Token × Nat) :=
  match cs.head?.bind (doubleSymbol? c), symbol? c with
  | some token, _ => .ok (token, 1)
  | none, some token => .ok (token, 0)
  | none, none => .error (.illFormed offset (.unexpectedCharacter c))

/-! ## The whole source -/

/-- The token that the character `c` begins, and how many characters after it belong to it. -/
def readToken (offset : Nat) (c : Char) (cs : List Char) : Except Error (Token × Nat) :=
  if isDigit c then (readNumber offset (c :: cs)).map fun (token, count) => (token, count - 1)
  else if c = '"' || c = '\'' then
    match readString c cs with
    | some (value, count) => .ok (.str (String.ofList value), count)
    | none => .error (.illFormed offset .unterminatedString)
  else if c = '$' then readMetavariable offset cs
  else if c.isAlpha || c = '_' then
    let word := c :: cs.takeWhile isNameChar
    .ok (wordToken word, word.length - 1)
  else readSymbol offset c cs

/-- The lexemes of a source whose first character stands at `offset`, after its first `skip`
    characters. -/
def lexemesFrom (skip offset : Nat) : List Char → Except Error (List Lexeme)
  | [] => .ok []
  | c :: cs =>
    if skip ≠ 0 then lexemesFrom (skip - 1) (offset + c.utf8Size) cs
    else if Text.isPlainBlank c then lexemesFrom 0 (offset + c.utf8Size) cs
    else do
      let (token, count) ← readToken offset c cs
      let more ← lexemesFrom count (offset + c.utf8Size) cs
      return ⟨offset, c :: cs.take count, token⟩ :: more

/-- The lexemes of a source. -/
def lexemes (source : List Char) : Except Error (List Lexeme) := lexemesFrom 0 0 source

end RuleSieve.Predicate
