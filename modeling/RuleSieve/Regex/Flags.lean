/-
  The flags of a pattern, and what a single character or class stands for under them.
-/
import RuleSieve.Regex.Node

namespace RuleSieve.Regex

/-- The flags in force at a place of the pattern. -/
structure Flags where
  /-- `i`: case does not matter. -/
  caseless : Bool
  /-- `m`: the two anchors also match at lines. -/
  multiLine : Bool
  /-- `s`: the dot matches line ends too. -/
  dotAll : Bool
  /-- `U`: repetitions are lazy unless marked. -/
  swapGreed : Bool
  /-- `u`: classes and boundaries know all of Unicode. -/
  unicode : Bool
  /-- `R`: a line may end in a carriage return. -/
  returns : Bool
  /-- `x`: blanks and comments are skipped. -/
  verbose : Bool
  deriving Repr, DecidableEq

namespace Flags

/-- The flags at the start of a pattern. -/
def start : Flags := ⟨false, false, false, false, true, false, false⟩

/-- The flags with the one of the given letter set to `on`, if there is such a letter. -/
def set? (flags : Flags) (letter : Char) (on : Bool) : Option Flags :=
  match letter with
  | 'i' => some { flags with caseless := on }
  | 'm' => some { flags with multiLine := on }
  | 's' => some { flags with dotAll := on }
  | 'U' => some { flags with swapGreed := on }
  | 'u' => some { flags with unicode := on }
  | 'R' => some { flags with returns := on }
  | 'x' => some { flags with verbose := on }
  | _ => none

/-- A set as a leaf of a class: closed under a change of case where case does not matter. -/
def leaf (flags : Flags) (s : CharSet) : CharSet :=
  if !flags.caseless then s
  else if flags.unicode then .caseless s
  else .asciiCaseless s

/-- A set that may reach beyond ASCII, which is refused where only ASCII is known. -/
def wide (flags : Flags) (s : CharSet) : Except PatternError CharSet :=
  if flags.unicode then .ok s else .error (.malformed "the class is not limited to ASCII")

/-- The set of the characters that are not in `s`, if `negated`. -/
def negate (flags : Flags) (negated : Bool) (s : CharSet) : Except PatternError CharSet :=
  if negated then flags.wide (.complement s) else .ok s

/-- What the dot matches. -/
def dot (flags : Flags) : Except PatternError CharSet :=
  flags.wide <|
    if flags.dotAll then .all
    else if flags.returns then .complement (.union (.single '\n') (.single '\r'))
    else .complement (.single '\n')

/-- What `^` asks for. -/
def lineStart (flags : Flags) : Look :=
  if flags.multiLine then .lineStart flags.returns else .textStart

/-- What `$` asks for. -/
def lineEnd (flags : Flags) : Look :=
  if flags.multiLine then .lineEnd flags.returns else .textEnd

/-- The class of digits, blanks or word characters that a letter stands for. -/
def shorthand (flags : Flags) (letter : Char) : CharSet :=
  match letter, flags.unicode with
  | 'd', true => .property Text.decimalDigits
  | 'd', false => .asciiDigit
  | 's', true => .blank
  | 's', false => .asciiBlank
  | _, true => .property Text.wordCharacters
  | _, false => .asciiWord

end Flags

/-! ## Skipping -/

/-- The text without the blanks and comments it begins with; `inComment` says whether a comment is
    still open. -/
def dropComments : (inComment : Bool) → List Char → List Char
  | _, [] => []
  | true, c :: cs => dropComments (c != '\n') cs
  | false, c :: cs =>
    if Text.isBlank c then dropComments false cs
    else if c = '#' then dropComments true cs
    else c :: cs

/-- What is read next where blanks and comments are skipped. -/
def Flags.skip (flags : Flags) (cs : List Char) : List Char :=
  if flags.verbose then dropComments false cs else cs

end RuleSieve.Regex
