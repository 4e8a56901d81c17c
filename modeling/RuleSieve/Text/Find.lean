/-
  Looking for one text inside another, and putting a third in its place.
-/
namespace RuleSieve.Text

/-- What follows `start` at the beginning of the text, if it begins with it. -/
def dropStart? : (start text : List Char) → Option (List Char)
  | [], text => some text
  | _ :: _, [] => none
  | a :: start, b :: text => if a = b then dropStart? start text else none

theorem dropStart?_eq_some_iff {start text rest : List Char} :
    dropStart? start text = some rest ↔ text = start ++ rest := by
  induction start generalizing text with
  | nil => simp [dropStart?]
  | cons a start ih =>
    cases text with
    | nil => simp [dropStart?]
    | cons b text =>
      by_cases h : a = b
      · simp [dropStart?, h, ih]
      · simp [dropStart?, h, Ne.symm h]

/-- Does `part` occur somewhere in the text? -/
def occursIn (part : List Char) : (text : List Char) → Bool
  | [] => part.isEmpty
  | c :: text => part.isPrefixOf (c :: text) || occursIn part text

/-- The text after its first `skip` characters, with every occurrence of a non-empty `part`
    replaced; occurrences are taken from the left and do not overlap. -/
def replaceFrom (part new : List Char) (skip : Nat) : (text : List Char) → List Char
  | [] => []
  | c :: text =>
    if skip ≠ 0 then replaceFrom part new (skip - 1) text
    else if part.isPrefixOf (c :: text) then new ++ replaceFrom part new (part.length - 1) text
    else c :: replaceFrom part new 0 text

/-- The text with every occurrence of `part` replaced by `new`.  An empty `part` occurs before
    every character and at the end. -/
def replaceAll (part new text : List Char) : List Char :=
  if part.isEmpty then new ++ text.flatMap (fun c => c :: new)
  else replaceFrom part new 0 text

end RuleSieve.Text
