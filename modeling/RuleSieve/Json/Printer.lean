/-
  Writing JSON, on one line or with an indentation of two spaces.
-/
import RuleSieve.Number.Written
import RuleSieve.Tree

namespace RuleSieve.Json

/-! ## Leaves -/

/-- Floats are written positionally from five zeros after the point up to sixteen digits before it, and
    whole ones keep a zero after the point. -/
def floatStyle : Binary64.Style := ⟨some (-5), some 16, true⟩

/-- The last digit of the escape of a control character. -/
def hexDigit (n : Nat) : Char := (Nat.digitChar (n % 16))

/-- A character between quotes. -/
def escapeChar (c : Char) : List Char :=
  match c with
  | '"' => ['\\', '"']
  | '\\' => ['\\', '\\']
  | '\x08' => ['\\', 'b']
  | '\x0c' => ['\\', 'f']
  | '\n' => ['\\', 'n']
  | '\r' => ['\\', 'r']
  | '\t' => ['\\', 't']
  | c =>
    if c.toNat < 0x20 then ['\\', 'u', '0', '0', hexDigit (c.toNat / 16), hexDigit c.toNat] else [c]

/-- A text in quotes. -/
def quote (s : String) : String := String.ofList ('"' :: s.toList.flatMap escapeChar ++ ['"'])

/-- A value without parts.  What is no finite number has no notation of its own. -/
def printScalar : Scalar → String
  | .null => "null"
  | .bool b => if b then "true" else "false"
  | .int n => String.ofList (Decimal.ofInt n)
  | .float x => if Binary64.isFinite x then Binary64.text floatStyle x else "null"
  | .text s => quote s

/-! ## On one line -/

mutual

/-- The value on one line, without blanks. -/
def print : Json → String
  | .leaf value => printScalar value
  | .list items => "[" ++ String.intercalate "," (printItems items) ++ "]"
  | .table fields => "\x7b" ++ String.intercalate "," (printFields fields) ++ "\x7d"

/-- The items of a list. -/
def printItems : List Json → List String
  | [] => []
  | item :: items => print item :: printItems items

/-- The fields of a table. -/
def printFields : List (String × Json) → List String
  | [] => []
  | (name, value) :: fields => (quote name ++ ":" ++ print value) :: printFields fields

end

/-! ## On several lines -/

/-- A new line at a depth. -/
def newLine (depth : Nat) : String := "\n" ++ String.ofList (List.replicate (2 * depth) ' ')

/-- Parts between brackets, each on a line of its own. -/
def onLines (depth : Nat) (opening closing : String) (parts : List String) : String :=
  if parts.isEmpty then opening ++ closing
  else
    opening ++ newLine (depth + 1) ++ String.intercalate ("," ++ newLine (depth + 1)) parts
      ++ newLine depth ++ closing

mutual

/-- The value with each of its parts on a line of its own. -/
def prettyAt (depth : Nat) : Json → String
  | .leaf value => printScalar value
  | .list items => onLines depth "[" "]" (prettyItems (depth + 1) items)
  | .table fields => onLines depth "\x7b" "\x7d" (prettyFields (depth + 1) fields)

/-- The items of a list. -/
def prettyItems (depth : Nat) : List Json → List String
  | [] => []
  | item :: items => prettyAt depth item :: prettyItems depth items

/-- The fields of a table. -/
def prettyFields (depth : Nat) : List (String × Json) → List String
  | [] => []
  | (name, value) :: fields =>
    (quote name ++ ": " ++ prettyAt depth value) :: prettyFields depth fields

end

/-- The value with each of its parts on a line of its own. -/
def pretty (value : Json) : String := prettyAt 0 value

end RuleSieve.Json
