/-
  Compiled patterns: does a pattern match, where does it match, and what is put in place of the
  matches.
-/
import RuleSieve.Number.Word
import RuleSieve.Regex.Reader
import RuleSieve.Regex.Search

namespace RuleSieve

/-- A compiled pattern. -/
structure Regex where
  machine : Regex.Machine
  /-- The groups that have names. -/
  names : List (String × Nat)
  deriving Repr

namespace Regex

/-- Compiles a pattern. -/
def compile (source : List Char) : Except PatternError Regex := do
  let pattern ← Pattern.read source
  return ⟨pattern.node.machine, pattern.names⟩

/-- Does the pattern match somewhere in the text? -/
def isMatch (regex : Regex) (text : List Char) : Bool :=
  (regex.machine.searchFrom text.toArray 0).isSome

/-! ## Matches -/

/-- A match: the places where it starts and stops, and what else it remembers. -/
structure Match where
  start : Nat
  stop : Nat
  slots : Slots
  deriving Repr, DecidableEq

/-- The match that remembered slots describe. -/
def Match.ofSlots (slots : Slots) : Match :=
  ⟨(slots.lookup 0).getD 0, (slots.lookup 1).getD 0, slots⟩

/-- The first match from `start` on. -/
def findFrom (regex : Regex) (text : Array Char) (start : Nat) : Option Match :=
  (regex.machine.searchFrom text start).map .ofSlots

/-- The first match from `start` on that is not an empty match at the end of the one before. -/
def nextMatch (regex : Regex) (text : Array Char) (start : Nat) (lastStop : Option Nat) :
    Option Match :=
  match regex.findFrom text start with
  | some m =>
    if m.start = m.stop && some m.stop = lastStop then regex.findFrom text (start + 1) else some m
  | none => none

/-- The matches from `start` on, from the left and without overlap.  Two of them never stop at the
    same place, so `fuel` need not exceed the number of places. -/
def matchesFrom (regex : Regex) (text : Array Char) :
    (fuel : Nat) → (start : Nat) → (lastStop : Option Nat) → List Match
  | 0, _, _ => []
  | fuel + 1, start, lastStop =>
    match regex.nextMatch text start lastStop with
    | some m => m :: matchesFrom regex text fuel m.stop (some m.stop)
    | none => []

/-- All matches in a text, from the left and without overlap. -/
def allMatches (regex : Regex) (text : List Char) : List Match :=
  regex.matchesFrom text.toArray (text.length + 1) 0 none

/-! ## Replacement -/

/-- A part of a replacement: text, or what a group matched. -/
inductive ReplacementPart where
  | text (cs : List Char)
  | group (index : Nat)
  | name (name : String)
  deriving Repr, DecidableEq

/-- The group that a reference in a replacement means: a number if it is one, else a name. -/
def referenced (name : List Char) : ReplacementPart :=
  let digits := if name.head? = some '+' then name.drop 1 else name
  if !digits.isEmpty && digits.all Decimal.isDigit && Decimal.value digits < Word.count then
    .group (Decimal.value digits)
  else .name (String.ofList name)

/-- Can the character stand in a reference without braces? -/
def isReferenceChar (c : Char) : Bool := c.isAlphanum || c == '_'

/-- What a dollar sign and the text after it mean, and how many characters of that text belong to
    it. -/
def readReference : List Char → ReplacementPart × Nat
  | '$' :: _ => (.text ['$'], 1)
  | '\x7b' :: cs =>
    let name := cs.takeWhile (· != '\x7d')
    if (cs.dropWhile (· != '\x7d')).isEmpty then (.text ['$'], 0)
    else (referenced name, name.length + 2)
  | cs =>
    let name := cs.takeWhile isReferenceChar
    if name.isEmpty then (.text ['$'], 0) else (referenced name, name.length)

/-- The parts of a replacement, after its first `skip` characters. -/
def replacementParts (skip : Nat) : List Char → List ReplacementPart
  | [] => []
  | c :: cs =>
    if skip ≠ 0 then replacementParts (skip - 1) cs
    else if c = '$' then
      let (part, count) := readReference cs
      part :: replacementParts count cs
    else .text [c] :: replacementParts 0 cs

/-- The characters of the text from one place to another. -/
def slice (text : List Char) (start stop : Nat) : List Char := (text.take stop).drop start

/-- What a group of a match matched; a group that took no part matched nothing. -/
def Match.group (m : Match) (text : List Char) (index : Nat) : List Char :=
  match m.slots.lookup (2 * index), m.slots.lookup (2 * index + 1) with
  | some start, some stop => slice text start stop
  | _, _ => []

/-- What a part of a replacement stands for at a match. -/
def ReplacementPart.expand (regex : Regex) (text : List Char) (m : Match) :
    ReplacementPart → List Char
  | .text cs => cs
  | .group index => m.group text index
  | .name known => (regex.names.lookup known).elim [] (m.group text)

/-- The text from `start` on, with each match replaced by what `new` gives for it. -/
def splice (text : List Char) (new : Match → List Char) : (start : Nat) → List Match → List Char
  | start, [] => text.drop start
  | start, m :: ms => slice text start m.start ++ new m ++ splice text new m.stop ms

/-- The text with the first `limit` matches replaced, or all of them if `limit` is zero. -/
def replace (regex : Regex) (text replacement : List Char) (limit : Nat) : List Char :=
  let found := regex.allMatches text
  let chosen := if limit = 0 then found else found.take limit
  let parts := replacementParts 0 replacement
  splice text (fun m => parts.flatMap (·.expand regex text m)) 0 chosen

/-! ## Anchoring -/

/-- The pattern that is meant to match at the start of the text only. -/
def anchored (source : List Char) : List Char :=
  ['\\', 'A', '(', '?', ':'] ++ source ++ [')']

end Regex

end RuleSieve
