/-
  Splitting a JSON text into tokens.
-/
import RuleSieve.Json.Number
import RuleSieve.Text.CodePoints

namespace RuleSieve.Json

/-- The tokens of a JSON text. -/
inductive Token where
  | openList
  | closeList
  | openTable
  | closeTable
  | colon
  | comma
  | scalar (value : Scalar)
  deriving Repr

/-! ## Texts -/

/-- What a letter after a backslash stands for. -/
def unescape? : Char → Option Char
  | '"' => some '"'
  | '\\' => some '\\'
  | '/' => some '/'
  | 'b' => some '\x08'
  | 'f' => some '\x0c'
  | 'n' => some '\n'
  | 'r' => some '\r'
  | 't' => some '\t'
  | _ => none

/-- The number that four hexadecimal digits write. -/
def fourDigits? (a b c d : Char) : Option Nat := do
  return (((← Text.hexDigit? a) * 16 + (← Text.hexDigit? b)) * 16 + (← Text.hexDigit? c)) * 16
    + (← Text.hexDigit? d)

/-- Is the number the first half of a pair? -/
def isHighHalf (n : Nat) : Bool := 0xD800 ≤ n && n < 0xDC00

/-- Is the number the second half of a pair? -/
def isLowHalf (n : Nat) : Bool := 0xDC00 ≤ n && n < 0xE000

/-- The character that the digits after `\u` write, and how many characters belong to them.  A
    character past the first 65536 is written as a pair. -/
def readCodePoint? : List Char → Option (Char × Nat)
  | a :: b :: c :: d :: rest => do
    let high ← fourDigits? a b c d
    if isHighHalf high then
      match rest with
      | '\\' :: 'u' :: a :: b :: c :: d :: _ =>
        let low ← fourDigits? a b c d
        if isLowHalf low then
          some (Char.ofNat (0x10000 + (high - 0xD800) * 0x400 + (low - 0xDC00)), 10)
        else none
      | _ => none
    else if isLowHalf high then none
    else some (Char.ofNat high, 4)
  | _ => none

/-- The text that a list of characters begins with, after its opening quote and `skip` characters, and
    how many characters it has with its closing quote. -/
def readText? (skip : Nat) : List Char → Option (List Char × Nat)
  | [] => none
  | c :: cs =>
    if skip ≠ 0 then readText? (skip - 1) cs
    else if c = '"' then some ([], 1)
    else if c.toNat < 0x20 then none
    else if c = '\\' then
      match cs with
      | 'u' :: digits => do
        let (written, count) ← readCodePoint? digits
        let (value, length) ← readText? (count + 1) cs
        return (written :: value, length + count + 2)
      | escaped :: _ => do
        let written ← unescape? escaped
        let (value, length) ← readText? 1 cs
        return (written :: value, length + 2)
      | [] => none
    else do
      let (value, length) ← readText? 0 cs
      return (c :: value, length + 1)

/-! ## Tokens -/

/-- May the character stand between tokens? -/
def isGap (c : Char) : Bool := c == ' ' || c == '\n' || c == '\t' || c == '\r'

/-- The words. -/
def words : List (List Char × Scalar) :=
  [(['n', 'u', 'l', 'l'], .null), (['t', 'r', 'u', 'e'], .bool true),
   (['f', 'a', 'l', 's', 'e'], .bool false)]

/-- The word that a text begins with, and how many characters it has. -/
def readWord? (text : List Char) : Option (Token × Nat) :=
  (words.find? fun (word, _) => word.isPrefixOf text).map fun (word, value) =>
    (.scalar value, word.length)

/-- The token that begins with the character, and how many characters it has. -/
def readToken? (c : Char) (cs : List Char) : Option (Token × Nat) :=
  match c with
  | '[' => some (.openList, 1)
  | ']' => some (.closeList, 1)
  | '\x7b' => some (.openTable, 1)
  | '\x7d' => some (.closeTable, 1)
  | ':' => some (.colon, 1)
  | ',' => some (.comma, 1)
  | '"' => (readText? 0 cs).map fun (value, length) =>
    (.scalar (.text (String.ofList value)), length + 1)
  | _ =>
    if c = '-' || Decimal.isDigit c then
      (readNumber? (c :: cs)).map fun (value, rest) =>
        (.scalar value, cs.length + 1 - rest.length)
    else readWord? (c :: cs)

/-- The tokens of a text, after its first `skip` characters. -/
def tokensFrom? (skip : Nat) : List Char → Option (List Token)
  | [] => some []
  | c :: cs =>
    if skip ≠ 0 then tokensFrom? (skip - 1) cs
    else if isGap c then tokensFrom? 0 cs
    else do
      let (token, length) ← readToken? c cs
      return token :: (← tokensFrom? (length - 1) cs)

/-- The tokens of a text. -/
def tokens? (text : List Char) : Option (List Token) := tokensFrom? 0 text

end RuleSieve.Json
