/-
  Regular expressions, with all flags resolved.
-/
import RuleSieve.Regex.CharSet

namespace RuleSieve.Regex

/-- What is wrong with a pattern. -/
inductive PatternError where
  /-- The pattern is not well formed. -/
  | malformed (reason : String)
  /-- The pattern needs an automaton that is too large. -/
  | tooLarge
  deriving Repr, DecidableEq

/-- The kinds of word boundary. -/
inductive Edge where
  /-- A boundary. -/
  | any
  /-- No boundary. -/
  | none
  /-- A word starts here. -/
  | starts
  /-- A word ends here. -/
  | ends
  /-- No word character stands before. -/
  | halfStarts
  /-- No word character stands after. -/
  | halfEnds
  deriving Repr, DecidableEq

/-- A condition on a place in the text. -/
inductive Look where
  | textStart
  | textEnd
  /-- A line starts here; lines may also end in a carriage return. -/
  | lineStart (returns : Bool)
  /-- A line ends here. -/
  | lineEnd (returns : Bool)
  /-- A condition on words, of all scripts or of ASCII only. -/
  | word (edge : Edge) (unicode : Bool)
  deriving Repr, DecidableEq

/-- Does the character count as part of a word? -/
def inWord (unicode : Bool) (c : Char) : Bool :=
  if unicode then Text.wordCharacters.contains c else CharSet.asciiWord.contains c

/-- Does the condition hold between two characters, either of which may be missing? -/
def Look.holds (look : Look) (before after : Option Char) : Bool :=
  match look with
  | .textStart => before.isNone
  | .textEnd => after.isNone
  | .lineStart false => before.all (· == '\n')
  | .lineStart true => before.all fun c => c == '\n' || (c == '\r' && after != some '\n')
  | .lineEnd false => after.all (· == '\n')
  | .lineEnd true => after.all fun c => c == '\r' || (c == '\n' && before != some '\r')
  | .word edge unicode =>
    let left := before.any (inWord unicode)
    let right := after.any (inWord unicode)
    match edge with
    | .any => left != right
    | .none => left == right
    | .starts => !left && right
    | .ends => left && !right
    | .halfStarts => !left
    | .halfEnds => !right

/-- A regular expression. -/
inductive Node where
  | empty
  /-- One character of a set. -/
  | char (set : CharSet)
  | look (condition : Look)
  /-- A group that is remembered under a number. -/
  | capture (index : Nat) (body : Node)
  | seq (first second : Node)
  /-- The first branch is preferred. -/
  | alt (first second : Node)
  /-- From `min` to `max` times the body, as often as possible if greedy. -/
  | repeated (min : Nat) (max : Option Nat) (greedy : Bool) (body : Node)
  deriving Repr

namespace Node

/-- Can the expression match the empty text? -/
def canBeEmpty : Node → Bool
  | .empty | .look _ => true
  | .char _ => false
  | .capture _ body => body.canBeEmpty
  | .seq first second => first.canBeEmpty && second.canBeEmpty
  | .alt first second => first.canBeEmpty || second.canBeEmpty
  | .repeated min _ _ body => min == 0 || body.canBeEmpty

/-- Can the expression match nothing but the empty text? -/
def onlyEmpty : Node → Bool
  | .empty | .look _ => true
  | .char _ => false
  | .capture _ body => body.onlyEmpty
  | .seq first second => first.onlyEmpty && second.onlyEmpty
  | .alt first second => first.onlyEmpty && second.onlyEmpty
  | .repeated _ max _ body => max == some 0 || body.onlyEmpty

/-- A repetition.  Repeating the empty text more than once changes nothing, so such a repetition is
    taken once at most. -/
def times (min : Nat) (max : Option Nat) (greedy : Bool) (body : Node) : Node :=
  let low := if body.onlyEmpty then Nat.min min 1 else min
  let high := if body.onlyEmpty then some ((max.map (Nat.min · 1)).getD 1) else max
  if low = 0 && high = some 0 then .empty
  else if low = 1 && high = some 1 then body
  else .repeated low high greedy body

/-- A sequence of expressions. -/
def sequence : List Node → Node
  | [] => .empty
  | [node] => node
  | node :: nodes => .seq node (sequence nodes)

/-- Alternatives, the first preferred. -/
def oneOf : List Node → Node
  | [] => .empty
  | [node] => node
  | node :: nodes => .alt node (oneOf nodes)

/-- A measure of the automaton that recognises the expression, in bytes.  It is an estimate from the
    shape of the expression, where the limit is meant for the automaton as it is laid out; near the
    limit the two may differ. -/
def cost : Node → Nat
  | .empty => 0
  | .char set => set.cost
  | .look _ => 32
  | .capture _ body => 64 + body.cost
  | .seq first second => first.cost + second.cost
  | .alt first second => 40 + first.cost + second.cost
  | .repeated min none _ body => 40 + (if min = 0 then 1 else min) * body.cost
  | .repeated min (some max) _ body => max * body.cost + 72 * (max - min)

/-- The largest automaton that is built, by the estimate of `Node.cost`. -/
def maxCost : Nat := 10485760

end Node

end RuleSieve.Regex
