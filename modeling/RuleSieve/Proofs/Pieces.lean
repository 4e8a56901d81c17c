/-
  How the template of a fix is read.

  A token is a dollar sign, perhaps three dots, and characters of a name.  A template is read once from
  the left: where a token starts the longest one is taken, and reading goes on behind it; any other
  character stands for itself (`Reads`).  There is one reading of each template, and it is the one that
  fixes are made from (`reads_iff`).
-/
import Mathlib.Data.List.TakeWhile
import RuleSieve.Template

namespace RuleSieve.Template

/-! ## Tokens -/

/-- A letter, a digit or an underscore. -/
def IsNameChar (c : Char) : Prop :=
  ('A' ≤ c ∧ c ≤ 'Z') ∨ ('a' ≤ c ∧ c ≤ 'z') ∨ ('0' ≤ c ∧ c ≤ '9') ∨ c = '_'

/-- Nothing, or three dots. -/
def IsDots (dots : List Char) : Prop := dots = [] ∨ dots = ['.', '.', '.']

/-- A dollar sign, perhaps three dots, and at least one character of a name. -/
def IsToken (token : List Char) : Prop :=
  ∃ dots name, token = '$' :: (dots ++ name) ∧ IsDots dots ∧ name ≠ [] ∧ ∀ c ∈ name, IsNameChar c

/-- Of the tokens that the text begins with, it is the longest. -/
structure IsLongest (token text : List Char) : Prop where
  isToken : IsToken token
  isPrefix : token <+: text
  longest : ∀ other, IsToken other → other <+: text → other.length ≤ token.length

/-- The text does not go on with a character of a name. -/
def EndsName (rest : List Char) : Prop := ∀ c ∈ rest.head?, ¬ IsNameChar c

theorem isNameChar_iff {c : Char} : isNameChar c = true ↔ IsNameChar c := by
  have hranges : isNameChar c = (decide ('A' ≤ c ∧ c ≤ 'Z') || ('a' ≤ c && c ≤ 'z') ||
      ('0' ≤ c && c ≤ '9') || c == '_') := rfl
  simp only [hranges, IsNameChar, Bool.or_eq_true, Bool.and_eq_true, decide_eq_true_eq, beq_iff_eq,
    or_assoc]

theorem not_isNameChar_dot : ¬ IsNameChar '.' := by
  rw [← isNameChar_iff]
  decide

/-! ## Cutting a token off -/

/-- Three dots are cut off where they stand before a name, and nothing is where they do not. -/
theorem cutDots_append_name {dots name rest : List Char} (hdots : IsDots dots) (hne : name ≠ [])
    (hname : ∀ c ∈ name, IsNameChar c) : cutDots (dots ++ name ++ rest) = (dots, name ++ rest) := by
  obtain ⟨c, name, rfl⟩ := List.exists_cons_of_ne_nil hne
  rcases hdots with rfl | rfl
  · have hc : c ≠ '.' := by
      rintro rfl
      exact not_isNameChar_dot (hname '.' List.mem_cons_self)
    show cutDots (c :: (name ++ rest)) = ([], c :: (name ++ rest))
    unfold cutDots
    split
    · next h => exact absurd (List.cons.inj h).1 hc
    · rfl
  · rfl

theorem isDots_cutDots (text : List Char) : IsDots (cutDots text).1 := by
  unfold cutDots
  split
  · exact .inr rfl
  · exact .inl rfl

/-- The characters of a name are taken up to its end. -/
theorem span_name {name rest : List Char} (hname : ∀ c ∈ name, IsNameChar c)
    (hrest : EndsName rest) :
    (name ++ rest).takeWhile isNameChar = name ∧ (name ++ rest).dropWhile isNameChar = rest := by
  have hpos : ∀ c ∈ name, isNameChar c = true := fun c hc => isNameChar_iff.2 (hname c hc)
  rw [List.takeWhile_append_of_pos hpos, List.dropWhile_append_of_pos hpos]
  cases rest with
  | nil => simp
  | cons c rest =>
    have hc : ¬ isNameChar c = true := fun h => hrest c rfl (isNameChar_iff.1 h)
    simp [List.takeWhile_cons_of_neg hc, List.dropWhile_cons_of_neg hc]

/-- A token is cut off if its name does not go on. -/
theorem cutToken?_append {token rest : List Char} (h : IsToken token) (hrest : EndsName rest) :
    cutToken? (token ++ rest) = some (token, rest) := by
  obtain ⟨dots, name, rfl, hdots, hne, hname⟩ := h
  obtain ⟨htake, hdrop⟩ := span_name hname hrest
  show cutToken? ('$' :: (dots ++ name ++ rest)) = _
  simp only [cutToken?, cutDots_append_name hdots hne hname, htake, hdrop]
  rw [if_neg (by simpa using hne)]

/-- What is cut off is a token, and its name ends there. -/
theorem isToken_of_cutToken? {text token rest : List Char}
    (h : cutToken? text = some (token, rest)) : IsToken token ∧ EndsName rest := by
  unfold cutToken? at h
  split at h
  · next body =>
    simp only [Option.ite_none_left_eq_some, Option.some.injEq, Prod.mk.injEq] at h
    obtain ⟨hne, rfl, rfl⟩ := h
    refine ⟨⟨_, _, rfl, isDots_cutDots body, by simpa using hne, fun c hc => ?_⟩, fun c hc => ?_⟩
    · exact isNameChar_iff.1 (List.mem_takeWhile_imp hc)
    · rw [← isNameChar_iff]
      have hhead := List.head?_dropWhile_not isNameChar (cutDots body).2
      rw [Option.mem_def.1 hc] at hhead
      simpa using hhead
  · cases h

/-- A token that goes on with one more character goes on with one of its name. -/
theorem isNameChar_of_append {token more : List Char} {c : Char} (h : IsToken token)
    (hmore : IsToken (token ++ c :: more)) : IsNameChar c := by
  obtain ⟨dots, name, rfl, hdots, hne, hname⟩ := h
  obtain ⟨dots', name', heq, hdots', hne', hname'⟩ := hmore
  -- both tokens have the dots that stand before the name of the shorter one
  have hcut : cutDots (dots' ++ name' ++ []) = (dots, name ++ (c :: more)) := by
    have htail : dots' ++ name' ++ [] = dots ++ name ++ c :: more := by
      rw [List.append_nil]
      exact (List.cons.inj heq).2.symm
    rw [htail]
    exact cutDots_append_name hdots hne hname
  rw [cutDots_append_name hdots' hne' hname', List.append_nil] at hcut
  apply hname'
  rw [(Prod.mk.inj hcut).2]
  exact List.mem_append_right _ List.mem_cons_self

/-- The longest token is the one whose name does not go on. -/
theorem isLongest_append_iff {token rest : List Char} :
    IsLongest token (token ++ rest) ↔ IsToken token ∧ EndsName rest := by
  constructor
  · rintro ⟨htoken, -, hlongest⟩
    refine ⟨htoken, fun c hc hname => ?_⟩
    obtain ⟨rest, rfl⟩ := List.head?_eq_some_iff.1 hc
    -- the token could take one more character
    have hlonger : IsToken (token ++ [c]) := by
      obtain ⟨dots, name, rfl, hdots, hne, hchars⟩ := htoken
      refine ⟨dots, name ++ [c], by simp, hdots, by simp, fun d hd => ?_⟩
      rcases List.mem_append.1 hd with hd | hd
      · exact hchars d hd
      · exact List.mem_singleton.1 hd ▸ hname
    have hle := hlongest (token ++ [c]) hlonger ⟨rest, by simp⟩
    rw [List.length_append, List.length_singleton] at hle
    omega
  · rintro ⟨htoken, hrest⟩
    refine ⟨htoken, List.prefix_append token rest, fun other hother hbegins => ?_⟩
    apply Nat.le_of_not_lt
    intro hlt
    -- a longer token would go on with what follows this one
    have hext : token <+: other :=
      List.prefix_of_prefix_length_le (List.prefix_append token rest) hbegins (Nat.le_of_lt hlt)
    obtain ⟨more, rfl⟩ := hext
    cases more with
    | nil => simp at hlt
    | cons c more =>
      obtain ⟨after, hafter⟩ := (List.prefix_append_right_inj token).1 hbegins
      refine hrest c ?_ (isNameChar_of_append htoken hother)
      rw [← hafter]
      rfl

theorem cutToken?_eq_some_iff {text token rest : List Char} :
    cutToken? text = some (token, rest) ↔ text = token ++ rest ∧ IsLongest token text := by
  constructor
  · intro h
    obtain rfl := eq_append_of_cutToken? h
    exact ⟨rfl, isLongest_append_iff.2 (isToken_of_cutToken? h)⟩
  · rintro ⟨rfl, h⟩
    obtain ⟨htoken, hrest⟩ := isLongest_append_iff.1 h
    exact cutToken?_append htoken hrest

/-- Nothing is cut off just where no token starts. -/
theorem cutToken?_eq_none_iff {text : List Char} :
    cutToken? text = none ↔ ∀ token, IsToken token → ¬ token <+: text := by
  constructor
  · rintro hnone token ⟨dots, name, rfl, hdots, hne, hname⟩ ⟨rest, rfl⟩
    -- with all that its name can take it would be cut off
    have htoken : IsToken ('$' :: (dots ++ (name ++ rest.takeWhile isNameChar))) := by
      refine ⟨dots, _, rfl, hdots, by simp [hne], fun c hc => ?_⟩
      rcases List.mem_append.1 hc with hc | hc
      · exact hname c hc
      · exact isNameChar_iff.1 (List.mem_takeWhile_imp hc)
    have hends : EndsName (rest.dropWhile isNameChar) := by
      intro c hc
      rw [← isNameChar_iff]
      have hhead := List.head?_dropWhile_not isNameChar rest
      rw [Option.mem_def.1 hc] at hhead
      simpa using hhead
    have hcut := cutToken?_append htoken hends
    have htext : '$' :: (dots ++ (name ++ rest.takeWhile isNameChar)) ++ rest.dropWhile isNameChar =
        '$' :: (dots ++ name) ++ rest := by
      simp
    rw [htext, hnone] at hcut
    cases hcut
  · intro hnone
    cases hcut : cutToken? text with
    | none => rfl
    | some cut =>
      obtain ⟨token, rest⟩ := cut
      obtain ⟨rfl, hlongest⟩ := cutToken?_eq_some_iff.1 hcut
      exact absurd (List.prefix_append token rest) (hnone token hlongest.isToken)

/-! ## Readings -/

/-- The pieces of the text from left to right: the longest token wherever one starts, and otherwise
    the character that stands there. -/
inductive Reads : List Char → List Piece → Prop
  | nil : Reads [] []
  | token {token rest : List Char} {ps : List Piece} (htoken : IsLongest token (token ++ rest))
      (hrest : Reads rest ps) : Reads (token ++ rest) (.token token :: ps)
  | char {c : Char} {cs : List Char} {ps : List Piece}
      (hnone : ∀ token, IsToken token → ¬ token <+: c :: cs) (hrest : Reads cs ps) :
      Reads (c :: cs) (.char c :: ps)

/-- The text of a piece. -/
def Piece.text : Piece → List Char
  | .char c => [c]
  | .token chars => chars

theorem pieces_of_cutToken? {text token rest : List Char}
    (h : cutToken? text = some (token, rest)) : pieces text = .token token :: pieces rest := by
  rw [pieces]
  split
  · next token' rest' h' =>
    rw [h] at h'
    cases h'
    rfl
  · next h' =>
    rw [h] at h'
    cases h'

theorem pieces_of_none {c : Char} {cs : List Char} (h : cutToken? (c :: cs) = none) :
    pieces (c :: cs) = .char c :: pieces cs := by
  rw [pieces]
  split
  · next h' =>
    rw [h] at h'
    cases h'
  · rfl

theorem pieces_nil : pieces [] = [] := by
  rw [pieces]
  rfl

/-- The pieces of a text are a reading of it. -/
theorem reads_pieces (text : List Char) : Reads text (pieces text) := by
  fun_induction pieces text with
  | case1 text token rest hcut _ ih =>
    obtain ⟨rfl, hlongest⟩ := cutToken?_eq_some_iff.1 hcut
    exact .token hlongest ih
  | case2 => exact .nil
  | case3 c cs hcut ih => exact .char (cutToken?_eq_none_iff.1 hcut) ih

/-- There is no other reading. -/
theorem Reads.eq_pieces {text : List Char} {ps : List Piece} (h : Reads text ps) :
    ps = pieces text := by
  induction h with
  | nil => exact pieces_nil.symm
  | token htoken _ ih =>
    rw [pieces_of_cutToken? (cutToken?_eq_some_iff.2 ⟨rfl, htoken⟩), ih]
  | char hnone _ ih => rw [pieces_of_none (cutToken?_eq_none_iff.2 hnone), ih]

theorem reads_iff {text : List Char} {ps : List Piece} : Reads text ps ↔ ps = pieces text := by
  constructor
  · exact Reads.eq_pieces
  · rintro rfl
    exact reads_pieces text

/-- A reading loses nothing of the text. -/
theorem Reads.flatMap_text {text : List Char} {ps : List Piece} (h : Reads text ps) :
    ps.flatMap Piece.text = text := by
  induction h with
  | nil => rfl
  | token _ _ ih => rw [List.flatMap_cons, ih, Piece.text]
  | char _ _ ih => rw [List.flatMap_cons, ih, Piece.text, List.singleton_append]

/-- A template that is one token is read as that. -/
theorem pieces_of_isToken {token : List Char} (h : IsToken token) :
    pieces token = [.token token] := by
  have hends : EndsName [] := fun c hc => by cases hc
  have hcut := cutToken?_append h hends
  rw [List.append_nil] at hcut
  rw [pieces_of_cutToken? hcut, pieces_nil]

end RuleSieve.Template
