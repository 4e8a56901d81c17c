/-
  Sets of characters, as the classes of a regular expression write them.

  A set is kept as the expression that was written, and membership is read off it.  Case is ignored
  at the leaves only: every other set is built from leaves that are closed under a change of case.
-/
import RuleSieve.Text.Blank
import RuleSieve.Text.Case

namespace RuleSieve.Regex

/-- A set of characters. -/
inductive CharSet where
  /-- No character. -/
  | empty
  /-- The characters from `first` to `last`. -/
  | range (first last : Char)
  /-- The characters of a property. -/
  | property (points : Text.CodePoints)
  /-- The white-space characters. -/
  | blank
  /-- The characters that agree with a member when case is ignored. -/
  | caseless (s : CharSet)
  /-- The ASCII characters that agree with a member when the case of ASCII letters is ignored. -/
  | asciiCaseless (s : CharSet)
  | complement (s : CharSet)
  | union (s t : CharSet)
  | inter (s t : CharSet)
  | diff (s t : CharSet)
  | symmDiff (s t : CharSet)
  deriving Repr

namespace CharSet

/-- The other case of an ASCII letter; every other character is its own. -/
def swapAsciiCase (c : Char) : Char :=
  if 'a' ≤ c && c ≤ 'z' then Char.ofNat (c.toNat - 32)
  else if 'A' ≤ c && c ≤ 'Z' then Char.ofNat (c.toNat + 32)
  else c

/-- Is the character a member? -/
def contains : CharSet → Char → Bool
  | .empty, _ => false
  | .range first last, c => first ≤ c && c ≤ last
  | .property points, c => points.contains c
  | .blank, c => Text.isBlank c
  | .caseless s, c => (Text.caseVariants c).any s.contains
  | .asciiCaseless s, c => s.contains c || s.contains (swapAsciiCase c)
  | .complement s, c => !s.contains c
  | .union s t, c => s.contains c || t.contains c
  | .inter s t, c => s.contains c && t.contains c
  | .diff s t, c => s.contains c && !t.contains c
  | .symmDiff s t, c => s.contains c != t.contains c

/-- One character alone. -/
def single (c : Char) : CharSet := .range c c

/-- Every character. -/
def all : CharSet := .complement .empty

/-- The union of several sets. -/
def unions (sets : List CharSet) : CharSet := sets.foldl .union .empty

/-- The set, or its complement. -/
def negateIf (negated : Bool) (s : CharSet) : CharSet := if negated then .complement s else s

/-- An estimate of the automaton that recognises the set, in bytes. -/
def cost : CharSet → Nat
  | .property points => 32 + 12 * points.size
  | .caseless s | .asciiCaseless s => 32 + s.cost
  | .complement s => 64 + s.cost
  | .union s t | .inter s t | .diff s t | .symmDiff s t => s.cost + t.cost
  | .empty | .range _ _ | .blank => 32

/-! ## ASCII classes -/

/-- The ASCII digits. -/
def asciiDigit : CharSet := .range '0' '9'

/-- The ASCII letters. -/
def asciiLetter : CharSet := .union (.range 'A' 'Z') (.range 'a' 'z')

/-- The ASCII characters that may stand in a word. -/
def asciiWord : CharSet := unions [asciiLetter, asciiDigit, single '_']

/-- The ASCII white-space characters. -/
def asciiBlank : CharSet := .union (.range '\t' '\r') (single ' ')

/-- The class that is written by name between `[:` and `:]`. -/
def named? : String → Option CharSet
  | "alnum" => some (.union asciiLetter asciiDigit)
  | "alpha" => some asciiLetter
  | "ascii" => some (.range '\x00' '\x7F')
  | "blank" => some (.union (single '\t') (single ' '))
  | "cntrl" => some (.union (.range '\x00' '\x1F') (single '\x7F'))
  | "digit" => some asciiDigit
  | "graph" => some (.range '!' '~')
  | "lower" => some (.range 'a' 'z')
  | "print" => some (.range ' ' '~')
  | "punct" =>
    some (unions [.range '!' '/', .range ':' '@', .range '[' '\x60', .range '\x7B' '~'])
  | "space" => some asciiBlank
  | "upper" => some (.range 'A' 'Z')
  | "word" => some asciiWord
  | "xdigit" => some (unions [asciiDigit, .range 'A' 'F', .range 'a' 'f'])
  | _ => none

end CharSet

end RuleSieve.Regex
