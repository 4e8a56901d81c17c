/-
  Programs for the matcher.

  A program is a table of instructions that name each other by place.  `Node.emit` writes the
  instructions of an expression so that control goes on at a given place afterwards.
-/
import RuleSieve.Regex.Node

namespace RuleSieve.Regex

/-- One instruction, with the places where control may go on. -/
inductive Instr where
  /-- Passes one character of the set. -/
  | char (set : CharSet) (next : Nat)
  /-- Goes on if the condition holds here. -/
  | look (condition : Look) (next : Nat)
  /-- Remembers the place in the text. -/
  | save (slot : Nat) (next : Nat)
  /-- Goes on at `first`, or else at `second`. -/
  | split (first second : Nat)
  /-- The expression has matched. -/
  | accept
  deriving Repr

/-- A table of instructions. -/
abbrev Program := Array Instr

/-- The choice between entering a body and leaving it. -/
def Instr.choose (greedy : Bool) (enter leave : Nat) : Instr :=
  if greedy then .split enter leave else .split leave enter

/-- What writes the instructions of an expression: from the place to go on at and the program so
    far, the place to enter at and the program with the instructions added. -/
abbrev Emitter := Nat → Program → Nat × Program

/-- The body `count` times in a row. -/
def Emitter.copies (body : Emitter) : Nat → Emitter
  | 0, next, prog => (next, prog)
  | count + 1, next, prog =>
    let (entry, prog) := body next prog
    copies body count entry prog

/-- The body at most `count` times; leaving early goes on at `next` at once. -/
def Emitter.atMost (body : Emitter) (greedy : Bool) (next : Nat) : Nat → Emitter
  | 0, entry, prog => (entry, prog)
  | count + 1, entry, prog =>
    let (enter, prog) := body entry prog
    atMost body greedy next count prog.size (prog.push (.choose greedy enter next))

/-- The body at least once: after each time the choice stands between another one and leaving. -/
def Emitter.plus (body : Emitter) (greedy : Bool) : Emitter := fun next prog =>
  let choice := prog.size
  let (enter, prog) := body choice (prog.push .accept)
  (enter, prog.setIfInBounds choice (.choose greedy enter next))

/-- The body any number of times.  A body that cannot be empty needs one choice only; otherwise the
    choice to enter at all is kept apart from the choice to go round again, so that a round that
    passed no character cannot come before one that does. -/
def Emitter.star (body : Emitter) (greedy canBeEmpty : Bool) : Emitter := fun next prog =>
  if canBeEmpty then
    let (enter, prog) := plus body greedy next prog
    (prog.size, prog.push (.choose greedy enter next))
  else
    let choice := prog.size
    let (enter, prog) := body choice (prog.push .accept)
    (choice, prog.setIfInBounds choice (.choose greedy enter next))

/-- Writes the instructions of an expression. -/
def Node.emit : Node → Emitter
  | .empty, next, prog => (next, prog)
  | .char set, next, prog => (prog.size, prog.push (.char set next))
  | .look condition, next, prog => (prog.size, prog.push (.look condition next))
  | .capture index body, next, prog =>
    let (entry, prog) := body.emit prog.size (prog.push (.save (2 * index + 1) next))
    (prog.size, prog.push (.save (2 * index) entry))
  | .seq first second, next, prog =>
    let (entry, prog) := second.emit next prog
    first.emit entry prog
  | .alt first second, next, prog =>
    let (left, prog) := first.emit next prog
    let (right, prog) := second.emit next prog
    (prog.size, prog.push (.split left right))
  | .repeated 0 none greedy body, next, prog =>
    Emitter.star body.emit greedy body.canBeEmpty next prog
  | .repeated (min + 1) none greedy body, next, prog =>
    let (entry, prog) := Emitter.plus body.emit greedy next prog
    Emitter.copies body.emit min entry prog
  | .repeated min (some max) greedy body, next, prog =>
    let (entry, prog) := Emitter.atMost body.emit greedy next (max - min) next prog
    Emitter.copies body.emit min entry prog

/-- A program and the place where it starts. -/
structure Machine where
  entry : Nat
  program : Program
  deriving Repr

/-- The machine that recognises an expression and remembers it as group zero. -/
def Node.machine (node : Node) : Machine :=
  let (entry, program) := (Node.capture 0 node).emit 0 #[.accept]
  ⟨entry, program⟩

end RuleSieve.Regex
