/-
  The tokens of predicates.
-/
import RuleSieve.Number.Written
import RuleSieve.Text.Quoted

namespace RuleSieve.Predicate

/-- A token. -/
inductive Token where
  | int (n : Int64)
  | float (x : Float)
  | str (s : String)
  | ident (name : String)
  | true
  | false
  | and
  | or
  | not
  | within
  | plus
  | minus
  | star
  | slash
  | doubleSlash
  | percent
  | equal
  | notEqual
  | less
  | lessEqual
  | greater
  | greaterEqual
  | tilde
  | leftParen
  | rightParen
  | leftBracket
  | rightBracket
  | comma
  | dot
  deriving Repr

/-- How a float is named in a message: between 0.0001 and 10¹⁶ positionally, and always with a point
    or an exponent. -/
def floatName : Binary64.Style := ⟨some (-4), some 16, true⟩

/-- How a token is named in a message. -/
def Token.name : Token → String
  | .int n => s!"Int({n.toInt})"
  | .float x => s!"Float({Binary64.text floatName x})"
  | .str s => s!"Str({Text.quoted s})"
  | .ident s => s!"Ident({Text.quoted s})"
  | .true => "True"
  | .false => "False"
  | .and => "And"
  | .or => "Or"
  | .not => "Not"
  | .within => "In"
  | .plus => "Plus"
  | .minus => "Minus"
  | .star => "Star"
  | .slash => "Slash"
  | .doubleSlash => "DoubleSlash"
  | .percent => "Percent"
  | .equal => "EqEq"
  | .notEqual => "NotEq"
  | .less => "Lt"
  | .lessEqual => "Le"
  | .greater => "Gt"
  | .greaterEqual => "Ge"
  | .tilde => "Tilde"
  | .leftParen => "LParen"
  | .rightParen => "RParen"
  | .leftBracket => "LBracket"
  | .rightBracket => "RBracket"
  | .comma => "Comma"
  | .dot => "Dot"

/-- A token with the characters it was read from and the offset, in bytes, at which they stand. -/
structure Lexeme where
  offset : Nat
  text : List Char
  token : Token
  deriving Repr

end RuleSieve.Predicate
