/-
  The functions and methods of predicates, and the elements of texts and maps.
-/
import RuleSieve.Predicate.Comparison
import RuleSieve.Number.Reading
import RuleSieve.Text.Case

namespace RuleSieve.Predicate

/-! ## Conversions -/

/-- The integer that a text writes, between blanks and with underscores anywhere. -/
def readInteger? (text : List Char) : Option Int64 :=
  (Decimal.readInt? ((Text.trim text).filter (· != '_'))).bind Word.ofInt?

/-- `int`: a float loses its fraction, and one that is too large becomes the nearest integer. -/
def toInt (value : Value) : Except Error Value :=
  match value with
  | .int n => .ok (.int n)
  | .bool b => .ok (.int (if b then 1 else 0))
  | .float x =>
    match Binary64.truncate? x with
    | some n => .ok (.int (Word.clamp n))
    | none => .error (.type (.noConversion value.typeName "int"))
  | .str s =>
    match readInteger? s.toList with
    | some n => .ok (.int n)
    | none => .error (.type (.noInteger s))
  | .map _ => .error (.type (.noConversion value.typeName "int"))

/-- `float`. -/
def toFloat (value : Value) : Except Error Value :=
  match value with
  | .str s =>
    match Binary64.read? (Text.trim s.toList) with
    | some x => .ok (.float x)
    | none => .error (.type (.noFloat s))
  | other =>
    match other.float? with
    | some x => .ok (.float x)
    | none => .error (.type (.noConversion other.typeName "float"))

/-- `len`: the number of characters of a text, or of entries of a map. -/
def lengthOf (value : Value) : Except Error Value :=
  match value with
  | .str s => .ok (.int (Int64.ofNat s.length))
  | .map entries => .ok (.int (Int64.ofNat entries.length))
  | other => .error (.type (.noLength other.typeName))

/-- `matches`: does a pattern match at the start of a text? -/
def matchesStart : Value → Value → Except Error Value
  | .str text, .str pattern => do
    return .bool ((← compilePattern (Regex.anchored pattern.toList)).isMatch text.toList)
  | left, right => wrongOperands "matches()" left right

/-! ## Calls -/

/-- A call with the wrong number of arguments. -/
def wrongCount {α : Type} (name : String) (expected : Nat) (args : List Value) : Except Error α :=
  .error (.type (.argumentCount name expected args.length))

/-- A function of one argument. -/
def unary (name : String) (f : Value → Except Error Value) (args : List Value) : Except Error Value :=
  match args with
  | [arg] => f arg
  | args => wrongCount name 1 args

/-- The value of a call. -/
def call (name : String) (args : List Value) : Except Error Value :=
  match name with
  | "int" => unary name toInt args
  | "float" => unary name toFloat args
  | "str" => unary name (fun value => .ok (.str value.text)) args
  | "bool" => unary name (fun value => .ok (.bool value.truthy)) args
  | "len" => unary name lengthOf args
  | "matches" =>
    match args with
    | [text, pattern] => matchesStart text pattern
    | args => wrongCount name 2 args
  | _ => .error (.unknownFunction name)

/-- A method of texts with one argument that is a text. -/
def textMethod (name : String) (f : List Char → Bool) (args : List Value) : Except Error Value :=
  unary name (fun arg =>
    match arg with
    | .str s => .ok (.bool (f s.toList))
    | _ => .error (.type (.argumentNotText name))) args

/-- A method of texts without arguments. -/
def plainMethod (name : String) (result : String) (args : List Value) : Except Error Value :=
  if args.isEmpty then .ok (.str result) else wrongCount name 0 args

/-- The value of a method call.  Only texts have methods. -/
def callMethod (receiver : Value) (name : String) (args : List Value) : Except Error Value :=
  match receiver with
  | .str s =>
    match name with
    | "startswith" => textMethod name (fun start => start.isPrefixOf s.toList) args
    | "endswith" => textMethod name (fun ending => ending.isSuffixOf s.toList) args
    | "lower" => plainMethod name (Text.lower s) args
    | "upper" => plainMethod name (Text.upper s) args
    | "strip" => plainMethod name (String.ofList (Text.trim s.toList)) args
    | _ => .error (.unknownFunction ("str." ++ name))
  | other => .error (.unknownFunction (other.typeName ++ "." ++ name))

/-! ## Elements -/

/-- The character at a position; a negative one counts from the end. -/
def characterAt? (cs : List Char) (i : Int64) : Option Char :=
  let position := if i < 0 then cs.length + i.toInt else i.toInt
  if position < 0 then none else cs[position.toNat]?

/-- The value under a name of a map, or the character at a position of a text. -/
def element (target index : Value) : Except Error Value :=
  match target, index with
  | .map entries, .str name =>
    match Dict.find? name entries with
    | some value => .ok value
    | none => .error (.unbound name)
  | .str s, index =>
    match index.int? with
    | none => wrongOperands "[]" target index
    | some i =>
      match characterAt? s.toList i with
      | some c => .ok (.str c.toString)
      | none => .error (.type .indexOutOfRange)
  | target, index => wrongOperands "[]" target index

end RuleSieve.Predicate
