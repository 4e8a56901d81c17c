/-
  What can go wrong with a predicate, and how it is said.
-/
import RuleSieve.Predicate.Token
import RuleSieve.Regex.Node

namespace RuleSieve.Predicate

/-! ## Causes -/

/-- Why a source is no predicate. -/
inductive SyntaxProblem where
  | integerTooLarge (digits : String)
  | unterminatedString
  | unnamedMetavariable
  | unexpectedCharacter (c : Char)
  | tooDeep
  | trailing (token : Token)
  | expected (token : Token)
  | expectedMethod
  | unexpected (token : Token)
  | unexpectedEnd
  deriving Repr

/-- Why an operation does not apply to its operands; types go by their names. -/
inductive TypeProblem where
  | overflow
  | notNegatable (type : String)
  | operands (operator left right : String)
  | unordered
  | indexOutOfRange
  | argumentCount (function : String) (expected given : Nat)
  | noInteger (text : String)
  | noFloat (text : String)
  | noConversion (type target : String)
  | noLength (type : String)
  | argumentNotText (function : String)
  deriving Repr, DecidableEq

/-- What went wrong with a predicate. -/
inductive Error where
  /-- The source is no predicate; the offset is in bytes. -/
  | illFormed (offset : Nat) (problem : SyntaxProblem)
  | unbound (name : String)
  | type (problem : TypeProblem)
  | divisionByZero
  | unknownFunction (name : String)
  | invalidRegex (pattern : String) (problem : Regex.PatternError)
  deriving Repr

/-! ## Wording -/

/-- The wording of a problem of syntax. -/
def SyntaxProblem.message : SyntaxProblem → String
  | .integerTooLarge digits => s!"invalid integer '{digits}': number too large to fit in target type"
  | .unterminatedString => "unterminated string literal"
  | .unnamedMetavariable => "expected metavariable name after '$'"
  | .unexpectedCharacter c => s!"unexpected character '{c}'"
  | .tooDeep => "expression nested too deeply"
  | .trailing token => s!"unexpected trailing token {token.name}"
  | .expected token => s!"expected {token.name}"
  | .expectedMethod => "expected method name after '.'"
  | .unexpected token => s!"unexpected token {token.name}"
  | .unexpectedEnd => "unexpected end of expression"

/-- The wording of a problem of types. -/
def TypeProblem.message : TypeProblem → String
  | .overflow => "integer overflow"
  | .notNegatable type => s!"bad operand type for unary -: '{type}'"
  | .operands operator left right =>
    s!"unsupported operand types for {operator}: '{left}' and '{right}'"
  | .unordered => "comparison with NaN"
  | .indexOutOfRange => "string index out of range"
  | .argumentCount function expected given =>
    s!"{function}() takes {expected} argument(s) but {given} were given"
  | .noInteger text => s!"invalid literal for int(): '{text}'"
  | .noFloat text => s!"could not convert string to float: '{text}'"
  | .noConversion type target => s!"cannot convert {type} to {target}"
  | .noLength type => s!"object of type '{type}' has no len()"
  | .argumentNotText function => s!"{function}() argument must be str"

/-- What is said of a pattern that does not compile, after its text. -/
def patternRemark : Regex.PatternError → String
  | .malformed reason => s!": regex parse error: {reason}"
  | .tooLarge => ": Compiled regex exceeds size limit of 10485760 bytes."

/-- The wording of an error. -/
def Error.message : Error → String
  | .illFormed offset problem => s!"syntax error at offset {offset}: {problem.message}"
  | .unbound name => s!"name '{name}' is not defined"
  | .type problem => s!"type error: {problem.message}"
  | .divisionByZero => "division by zero"
  | .unknownFunction name => s!"unknown function '{name}'"
  | .invalidRegex pattern problem => s!"invalid regex '{pattern}'{patternRemark problem}"

/-- Is it the source that is wrong, and not a run of the predicate? -/
def Error.isSyntax : Error → Bool
  | .illFormed .. => true
  | _ => false

end RuleSieve.Predicate
