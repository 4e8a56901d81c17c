/-
  Classes in brackets.

  Reading a class keeps a stack of what is still open: brackets, with the members that stand before
  them, and set operations, with their left side.  Set operations have no precedence and are taken
  from the left.
-/
import RuleSieve.Regex.Escape

namespace RuleSieve.Regex

open Text (dropStart?)

/-- A set together with how deeply it is nested. -/
structure Member where
  set : CharSet
  nest : Nat
  deriving Repr

/-- The union of members, the last one first. -/
def Member.join (members : List Member) : Member :=
  match members with
  | [] => ⟨.empty, 0⟩
  | [member] => member
  | _ => ⟨.unions (members.reverse.map (·.set)), 1 + (members.map (·.nest)).foldl max 0⟩

/-- The operations between two sets. -/
inductive SetOp where
  | inter
  | diff
  | symmDiff
  deriving Repr, DecidableEq

/-- The set that the operation gives. -/
def SetOp.apply : SetOp → CharSet → CharSet → CharSet
  | .inter => .inter
  | .diff => .diff
  | .symmDiff => .symmDiff

/-- What is open around the members being read. -/
inductive ClassFrame where
  /-- A bracket, after the members `before`. -/
  | bracket (negated : Bool) (before : List Member)
  /-- An operation that waits for its right side. -/
  | operation (op : SetOp) (left : Member)
  deriving Repr

/-- Completes the operation that is open, if any, with its right side. -/
def closeOperation (right : Member) : List ClassFrame → Member × List ClassFrame
  | .operation op left :: frames =>
    (⟨op.apply left.set right.set, 1 + max left.nest right.nest⟩, frames)
  | frames => (right, frames)

/-- Literal hyphens at the start of a class. -/
def leadingHyphens (flags : Flags) : (fuel : Nat) → List Char → List Member × List Char
  | 0, cs => ([], cs)
  | fuel + 1, cs =>
    match cs with
    | '-' :: cs =>
      let (members, rest) := leadingHyphens flags fuel (flags.skip cs)
      (⟨.single '-', 0⟩ :: members, rest)
    | cs => ([], cs)

/-- The members that stand at the start of a class although they mean something else later. -/
def startMembers (flags : Flags) (negated : Bool) (cs : List Char) :
    Except PatternError ((Bool × List Member) × List Char) :=
  match leadingHyphens flags cs.length cs with
  | (_, []) => malformed "the class is not closed"
  | ([], ']' :: cs) =>
    match flags.skip cs with
    | [] => malformed "the class is not closed"
    | cs => .ok ((negated, [⟨.single ']', 0⟩]), cs)
  | (hyphens, cs) => .ok ((negated, hyphens), cs)

/-- What follows an opening bracket: whether the class is negated, and the members at its start. -/
def openClass (flags : Flags) (cs : List Char) :
    Except PatternError ((Bool × List Member) × List Char) :=
  match flags.skip cs with
  | '^' :: cs => startMembers flags true (flags.skip cs)
  | cs => startMembers flags false cs

/-- What follows the colon, and the mark for the complement, of a class by name. -/
def readClassName? (flags : Flags) (negated : Bool) (cs : List Char) :
    Option (Except PatternError CharSet × List Char) :=
  match dropStart? [':', ']'] (cs.dropWhile (· != ':')),
    CharSet.named? (String.ofList (cs.takeWhile (· != ':'))) with
  | some rest, some set => some (flags.negate negated (flags.leaf set), rest)
  | _, _ => none

/-- A class by name, `[:name:]`, after its opening bracket; anything else is not one. -/
def namedClass? (flags : Flags) (cs : List Char) :
    Option (Except PatternError CharSet × List Char) :=
  (dropStart? [':'] cs).bind fun cs =>
    match dropStart? ['^'] cs with
    | some cs => readClassName? flags true cs
    | none => readClassName? flags false cs

/-- One character or class inside brackets. -/
def readClassAtom (flags : Flags) : List Char → Except PatternError (Atom × List Char)
  | [] => malformed "the class is not closed"
  | '\\' :: cs => readEscape flags cs
  | c :: cs => .ok (.literal c, cs)

/-- The range between two characters. -/
def rangeMember (flags : Flags) (first last : Char) : Except PatternError Member :=
  if last < first then malformed "the range is empty"
  else if !flags.unicode && 128 ≤ last.toNat then malformed "the class is not limited to ASCII"
  else .ok ⟨flags.leaf (.range first last), 0⟩

/-- The range between two atoms. -/
def Atom.rangeTo (flags : Flags) : Atom → Atom → Except PatternError Member
  | .literal first, .literal last => rangeMember flags first last
  | _, _ => malformed "a range needs two characters"

/-- The member that an atom alone is. -/
def Atom.member (flags : Flags) : Atom → Except PatternError Member
  | .literal c => rangeMember flags c c
  | .set s => .ok ⟨s, 0⟩
  | .look _ => malformed "the escape has no place in a class"

/-- Does a hyphen follow that makes a range?  One before a bracket or another hyphen does not. -/
def rangeFollows (flags : Flags) : List Char → Bool
  | '-' :: next =>
    match flags.skip next with
    | ']' :: _ | '-' :: _ => false
    | _ => true
  | _ => false

/-- The member that an atom begins, after the atom. -/
def readMemberFrom (flags : Flags) (atom : Atom) (cs : List Char) :
    Except PatternError (Member × List Char) :=
  if cs.isEmpty then malformed "the class is not closed"
  else if rangeFollows flags cs then do
    let (last, rest) ← readClassAtom flags (flags.skip (cs.drop 1))
    return (← atom.rangeTo flags last, rest)
  else do return (← atom.member flags, cs)

/-- A member of a class: a range, or what one atom stands for. -/
def readMember (flags : Flags) (cs : List Char) : Except PatternError (Member × List Char) := do
  let (atom, cs) ← readClassAtom flags cs
  readMemberFrom flags atom (flags.skip cs)

/-- The operation that is written here, and the rest. -/
def readSetOp? : List Char → Option (SetOp × List Char)
  | '&' :: '&' :: cs => some (.inter, cs)
  | '-' :: '-' :: cs => some (.diff, cs)
  | '~' :: '~' :: cs => some (.symmDiff, cs)
  | _ => none

/-- Reads members until the outermost bracket closes.  Every round reads at least one character, so
    `fuel` need not exceed their number. -/
def readMembers (flags : Flags) :
    (fuel : Nat) → (members : List Member) → (frames : List ClassFrame) → List Char →
      Except PatternError (Member × List Char)
  | 0, _, _, _ => malformed "the class is not closed"
  | fuel + 1, members, frames, cs =>
    let cs := flags.skip cs
    match readSetOp? cs with
    | some (op, rest) =>
      let (left, frames) := closeOperation (.join members) frames
      readMembers flags fuel [] (.operation op left :: frames) rest
    | none =>
      match cs with
      | [] => malformed "the class is not closed"
      | '[' :: rest =>
        match namedClass? flags rest with
        | some (set, rest) => do
          readMembers flags fuel (⟨← set, 0⟩ :: members) frames rest
        | none => do
          let ((negated, start), rest) ← openClass flags rest
          readMembers flags fuel start.reverse (.bracket negated members :: frames) rest
      | ']' :: rest =>
        match closeOperation (.join members) frames with
        | (inside, .bracket negated before :: frames) => do
          let closed : Member := ⟨← flags.negate negated inside.set, 1 + inside.nest⟩
          if frames.isEmpty then return (closed, rest)
          else readMembers flags fuel (closed :: before) frames rest
        | _ => malformed "the class is not open"
      | cs => do
        let (member, rest) ← readMember flags cs
        readMembers flags fuel (member :: members) frames rest

/-- A class, after its opening bracket. -/
def readClass (flags : Flags) (cs : List Char) : Except PatternError (Member × List Char) := do
  let ((negated, start), rest) ← openClass flags cs
  readMembers flags (rest.length + 1) start.reverse [.bracket negated []] rest

end RuleSieve.Regex
