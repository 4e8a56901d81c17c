/-
  Texts in which the names of metavariables stand for what they are bound to.

  A message may use what an enclosing match binds; a name is put in wherever it occurs.  A fix is read
  once from the left, token by token, and may use only what its own match binds.
-/
import RuleSieve.Fault
import RuleSieve.Match
import RuleSieve.Text.Find

namespace RuleSieve.Template

/-! ## Messages -/

/-- The names that matches bind, in the order in which they are first seen. -/
def boundNames (ms : List Match) : List String := distinctNames (ms.flatMap (·.bindings.names))

/-- What a name stands for in the message of a match: what the match binds it to, or else what the
    first enclosing match that binds it does. -/
def resolve? (m : Match) (ms : List Match) (name : String) : Option String :=
  m.value? name <|>
    (ms.find? fun other => other.binds name && other.span.encloses m.span).bind (·.value? name)

/-- The text with every occurrence of a name replaced by what it stands for, if it stands for
    anything. -/
def fillName (m : Match) (ms : List Match) (text : List Char) (name : String) : List Char :=
  if Text.occursIn name.toList text then
    (resolve? m ms name).elim text fun value => Text.replaceAll name.toList value.toList text
  else text

/-- The message of a match.  Names are put in one after the other, so a text that was put in may take
    part in what follows. -/
def fillMessage (template : String) (m : Match) (ms : List Match) : String :=
  String.ofList ((boundNames ms).foldl (fillName m ms) template.toList)

/-! ## Tokens of a fix -/

/-- Can the character stand in a name? -/
def isNameChar (c : Char) : Bool := c.isAlphanum || c == '_'

/-- Three dots, if the text begins with them, and the rest. -/
def cutDots : List Char → List Char × List Char
  | '.' :: '.' :: '.' :: rest => (['.', '.', '.'], rest)
  | rest => ([], rest)

/-- The token that the text begins with, and the rest: a dollar sign, perhaps three dots, and at least
    one character of a name. -/
def cutToken? : List Char → Option (List Char × List Char)
  | '$' :: rest =>
    let (dots, body) := cutDots rest
    let name := body.takeWhile isNameChar
    if name.isEmpty then none else some ('$' :: (dots ++ name), body.dropWhile isNameChar)
  | _ => none

/-- Dots and rest are the text. -/
theorem cutDots_append (text : List Char) : (cutDots text).1 ++ (cutDots text).2 = text := by
  unfold cutDots
  split <;> rfl

/-- A token and its rest are the text. -/
theorem eq_append_of_cutToken? {text token rest : List Char}
    (h : cutToken? text = some (token, rest)) : text = token ++ rest := by
  unfold cutToken? at h
  split at h
  · next body =>
    simp only [Option.ite_none_left_eq_some, Option.some.injEq, Prod.mk.injEq] at h
    obtain ⟨_, rfl, rfl⟩ := h
    simp [cutDots_append]
  · simp at h

/-- A token is not empty. -/
theorem token_ne_nil_of_cutToken? {text token rest : List Char}
    (h : cutToken? text = some (token, rest)) : token ≠ [] := by
  unfold cutToken? at h
  split at h
  · simp only [Option.ite_none_left_eq_some, Option.some.injEq, Prod.mk.injEq] at h
    obtain ⟨_, rfl, _⟩ := h
    simp
  · simp at h

/-- The rest after a token is shorter than the text. -/
theorem length_lt_of_cutToken? {text token rest : List Char}
    (h : cutToken? text = some (token, rest)) : rest.length < text.length := by
  have hpos := List.length_pos_iff.2 (token_ne_nil_of_cutToken? h)
  rw [eq_append_of_cutToken? h, List.length_append]
  omega

/-- A piece of a fix template: a token, or a character outside tokens. -/
inductive Piece where
  | char (c : Char)
  | token (token : List Char)
  deriving Repr, DecidableEq

/-- The pieces of a template, tokens being taken from the left. -/
def pieces (text : List Char) : List Piece :=
  match h : cutToken? text with
  | some (token, rest) =>
    have := length_lt_of_cutToken? h
    .token token :: pieces rest
  | none =>
    match text with
    | [] => []
    | c :: cs => .char c :: pieces cs
termination_by text.length

/-! ## Fixes -/

/-- Can the character begin the name of a metavariable? -/
def isNameStart (c : Char) : Bool := ('A' ≤ c && c ≤ 'Z') || c == '_'

/-- Has the token the shape of a metavariable: capitals, digits and underscores, and no digit at the
    start? -/
def isMetavariable : List Char → Bool
  | '$' :: rest =>
    match (cutDots rest).2 with
    | [] => false
    | c :: cs => isNameStart c && cs.all fun d => isNameStart d || ('0' ≤ d && d ≤ '9')
  | _ => false

/-- The binding with the longest name that the token begins with, and the rest of the token. -/
def longestBound? (token : List Char) : Dict Binding → Option (String × List Char)
  | [] => none
  | (name, binding) :: others =>
    match Text.dropStart? name.toList token, longestBound? token others with
    | none, best => best
    | some rest, none => some (binding.content, rest)
    | some rest, some (content, shorter) =>
      if rest.length < shorter.length then some (binding.content, rest) else some (content, shorter)

/-- What a token of a fix becomes. -/
def fillToken (m : Match) (token : List Char) : Except Fault (List Char) :=
  match longestBound? token m.bindings with
  | some (content, rest) => .ok (content.toList ++ rest)
  | none => if isMetavariable token then .error (.fixNotBound (String.ofList token)) else .ok token

/-- What a piece of a fix becomes. -/
def fillPiece (m : Match) : Piece → Except Fault (List Char)
  | .char c => .ok [c]
  | .token token => fillToken m token

/-- The fix of a match. -/
def fillFix (template : String) (m : Match) : Except Fault String := do
  let parts ← (pieces template.toList).mapM (fillPiece m)
  return String.ofList parts.flatten

end RuleSieve.Template
