/-
  How lexemes stand in a source.

  A source is blanks and lexemes, one after the other, and each lexeme stands at the offset that it
  carries (`Laid`).  Which lexeme stands at a place depends on what follows it, and is decided by the
  reader of tokens alone: the lexemes of a source are those that are laid out in it and are read where
  they stand (`lexemesFrom_eq_ok_iff`).  Whatever is wrong with a source is said at the place where a
  token would have to begin (`exists_of_lexemesFrom_eq_error`).
-/
import Mathlib.Data.List.Basic
import RuleSieve.Predicate.Evaluation
import RuleSieve.Proofs.Outcome

namespace RuleSieve.Predicate

open Decimal (isDigit)

variable {offset : Nat} {c : Char} {cs : List Char}

/-! ## Lengths -/

theorem byteLength_append (xs ys : List Char) :
    byteLength (xs ++ ys) = byteLength xs + byteLength ys := by
  induction xs with
  | nil => exact (Nat.zero_add _).symm
  | cons c xs ih => rw [List.cons_append, byteLength, byteLength, ih, Nat.add_assoc]

theorem length_takeWhile_le (p : Char → Bool) (cs : List Char) :
    (cs.takeWhile p).length ≤ cs.length := (cs.takeWhile_sublist p).length_le

theorem fractionLength_le (cs : List Char) : fractionLength cs ≤ cs.length := by
  unfold fractionLength
  split
  · next c cs =>
    have hdigits := length_takeWhile_le isDigitOrMark (c :: cs)
    simp only [List.length_cons] at hdigits ⊢
    split <;> omega
  · exact Nat.zero_le _

theorem exponentLength_le (cs : List Char) : exponentLength cs ≤ cs.length := by
  unfold exponentLength
  split
  · next mark cs =>
    split
    · extract_lets sign
      split
      · next c more hdrop =>
        have hdigits := length_takeWhile_le isDigitOrMark (c :: more)
        have hlength := congrArg List.length hdrop
        simp only [List.length_drop, List.length_cons] at hdigits hlength ⊢
        split <;> omega
      · exact Nat.zero_le _
    · exact Nat.zero_le _
  · exact Nat.zero_le _

/-- The number of characters of the number that a text begins with. -/
def numberLength (cs : List Char) : Nat :=
  let whole := (cs.takeWhile isDigitOrMark).length
  let fraction := fractionLength (cs.drop whole)
  whole + fraction + exponentLength (cs.drop (whole + fraction))

theorem numberLength_le (cs : List Char) : numberLength cs ≤ cs.length := by
  have hwhole := length_takeWhile_le isDigitOrMark cs
  have hfraction := fractionLength_le (cs.drop (cs.takeWhile isDigitOrMark).length)
  have hexponent := exponentLength_le (cs.drop ((cs.takeWhile isDigitOrMark).length +
    fractionLength (cs.drop (cs.takeWhile isDigitOrMark).length)))
  simp only [numberLength, List.length_drop] at hfraction hexponent ⊢
  omega

/-- What is read of a number; it is an integer if it has digits only. -/
theorem readNumber_eq (offset : Nat) (cs : List Char) :
    readNumber offset cs =
      let digits := (cs.take (numberLength cs)).filter (· != '_')
      if numberLength cs = (cs.takeWhile isDigitOrMark).length then
        if Decimal.value digits < Word.half then
          .ok (.int (Int64.ofNat (Decimal.value digits)), numberLength cs)
        else .error (.illFormed offset (.integerTooLarge (String.ofList digits)))
      else .ok (.float ((Binary64.read? digits).getD Binary64.nan), numberLength cs) := by
  unfold readNumber
  extract_lets whole fraction exponent digits digits'
  rw [show digits' = digits from rfl, show numberLength cs = whole + fraction + exponent from rfl]
  by_cases hwhole : fraction + exponent = 0
  · have hsum : whole + fraction + exponent = whole := by omega
    rw [if_pos hwhole, hsum]
    exact (if_pos rfl).symm
  · rw [if_neg hwhole]
    exact (if_neg fun hsum => hwhole (by omega)).symm

/-- A number is read to its end. -/
theorem readNumber_eq_ok {token : Token} {count : Nat} (h : readNumber offset cs = .ok (token, count)) :
    count = numberLength cs := by
  rw [readNumber_eq] at h
  extract_lets digits at h
  split at h
  · split at h
    · exact (Prod.mk.inj (Except.ok.inj h)).2.symm
    · cases h
  · exact (Prod.mk.inj (Except.ok.inj h)).2.symm

section

variable {quote : Char}

theorem readString_quote : readString quote (quote :: cs) = some ([], 1) := by
  unfold readString
  exact if_pos rfl

theorem readString_escape {escaped : Char} (hquote : '\\' ≠ quote) :
    readString quote ('\\' :: escaped :: cs) =
      (readString quote cs).map fun (value, count) => (unescape escaped :: value, count + 2) := by
  simp only [readString, if_neg hquote]

theorem readString_plain (hquote : c ≠ quote) (hescape : c ≠ '\\') :
    readString quote (c :: cs) =
      (readString quote cs).map fun (value, count) => (c :: value, count + 1) := by
  cases cs <;> simp [readString, hquote, hescape]

/-- A string ends within the text. -/
theorem readString_length_le {value : List Char} {count : Nat}
    (h : readString quote cs = some (value, count)) : count ≤ cs.length := by
  induction cs using readString.induct quote generalizing value count with
  | case1 => cases h
  | case2 cs =>
    rw [readString_quote] at h
    obtain ⟨-, rfl⟩ := Prod.mk.inj (Option.some.inj h)
    simp only [List.length_cons]
    omega
  | case3 hquote => simp [readString, hquote] at h
  | case4 escaped cs hquote ih =>
    rw [readString_escape hquote, Option.map_eq_some_iff] at h
    obtain ⟨⟨rest, n⟩, hrest, heq⟩ := h
    obtain ⟨-, rfl⟩ := Prod.mk.inj heq
    have hle := ih hrest
    simp only [List.length_cons]
    omega
  | case5 c cs hend hescape hquote ih =>
    rw [readString_plain hquote, Option.map_eq_some_iff] at h
    · obtain ⟨⟨rest, n⟩, hrest, heq⟩ := h
      obtain ⟨-, rfl⟩ := Prod.mk.inj heq
      have hle := ih hrest
      simp only [List.length_cons]
      omega
    · cases cs with
      | nil => exact (hend · rfl)
      | cons d cs => exact (hescape d cs · rfl)

end

/-! ## The token at a place -/

/-- A metavariable ends within the text. -/
theorem readMetavariable_length_le {token : Token} {count : Nat}
    (h : readMetavariable offset cs = .ok (token, count)) : count ≤ cs.length := by
  unfold readMetavariable at h
  extract_lets dots name at h
  split at h
  · cases h
  · next hname =>
    obtain ⟨-, rfl⟩ := Prod.mk.inj (Except.ok.inj h)
    have hdots : dots ≤ cs.length := by
      show (if ['.', '.', '.'].isPrefixOf cs then 3 else 0) ≤ cs.length
      split
      · next hprefix => exact (List.isPrefixOf_iff_prefix.mp hprefix).length_le
      · exact Nat.zero_le _
    have hle := length_takeWhile_le isNameChar (cs.drop dots)
    rw [List.length_drop] at hle
    show dots + ((cs.drop dots).takeWhile isNameChar).length ≤ cs.length
    omega

/-- A symbol ends within the text. -/
theorem readSymbol_length_le {token : Token} {count : Nat}
    (h : readSymbol offset c cs = .ok (token, count)) : count ≤ cs.length := by
  unfold readSymbol at h
  split at h
  · next double _ hdouble =>
    obtain ⟨-, rfl⟩ := Prod.mk.inj (Except.ok.inj h)
    cases cs with
    | nil => cases hdouble
    | cons d cs => simp only [List.length_cons]; omega
  · obtain ⟨-, rfl⟩ := Prod.mk.inj (Except.ok.inj h)
    exact Nat.zero_le _
  · cases h

/-- A token ends within the text. -/
theorem readToken_length_le {token : Token} {count : Nat}
    (h : readToken offset c cs = .ok (token, count)) : count ≤ cs.length := by
  unfold readToken at h
  split at h
  · obtain ⟨⟨number, length⟩, hnumber, heq⟩ := Outcome.map_eq_ok_iff.mp h
    obtain ⟨-, rfl⟩ := Prod.mk.inj heq
    have hle := numberLength_le (c :: cs)
    rw [← readNumber_eq_ok hnumber, List.length_cons] at hle
    show length - 1 ≤ cs.length
    omega
  · split at h
    · split at h
      · next hstring =>
        obtain ⟨-, rfl⟩ := Prod.mk.inj (Except.ok.inj h)
        exact readString_length_le hstring
      · cases h
    · split at h
      · exact readMetavariable_length_le h
      · split at h
        · obtain ⟨-, rfl⟩ := Prod.mk.inj (Except.ok.inj h)
          exact length_takeWhile_le isNameChar cs
        · exact readSymbol_length_le h

/-- Whatever is wrong with a token is said at its place. -/
theorem exists_of_readToken_eq_error {e : Error} (h : readToken offset c cs = .error e) :
    ∃ problem, e = .illFormed offset problem := by
  -- a number is read from its first digit on, the others from the character after their first
  have hnumber : ∀ cs, readNumber offset cs = .error e → ∃ problem, e = .illFormed offset problem := by
    intro cs h
    rw [readNumber_eq] at h
    extract_lets at h
    split at h
    · split at h
      · cases h
      · exact ⟨_, (Except.error.inj h).symm⟩
    · cases h
  unfold readToken readMetavariable readSymbol at h
  extract_lets at h
  split at h
  · cases hread : readNumber offset (c :: cs) with
    | error e' =>
      rw [hread] at h
      obtain rfl : e' = e := Except.error.inj h
      exact hnumber _ hread
    | ok r => rw [hread] at h; cases h
  · split at h
    · split at h
      · cases h
      · exact ⟨_, (Except.error.inj h).symm⟩
    · split at h
      · split at h
        · exact ⟨_, (Except.error.inj h).symm⟩
        · cases h
      · split at h
        · cases h
        · split at h
          · cases h
          · cases h
          · exact ⟨_, (Except.error.inj h).symm⟩

/-! ## The first token of a text -/

/-- Reading goes past a blank. -/
theorem lexemesFrom_blank (hc : Text.isPlainBlank c = true) :
    lexemesFrom 0 offset (c :: cs) = lexemesFrom 0 (offset + c.utf8Size) cs := by
  rw [lexemesFrom, if_neg (by decide), if_pos hc]

/-- Reading goes past a token. -/
theorem lexemesFrom_token (hc : Text.isPlainBlank c = false) :
    lexemesFrom 0 offset (c :: cs) = do
      let (token, count) ← readToken offset c cs
      let more ← lexemesFrom count (offset + c.utf8Size) cs
      return ⟨offset, c :: cs.take count, token⟩ :: more := by
  rw [lexemesFrom, if_neg (by decide), if_neg (by simp [hc])]

/-- Characters that are to be passed over count for the offset alone. -/
theorem lexemesFrom_append (text rest : List Char) :
    lexemesFrom text.length offset (text ++ rest) = lexemesFrom 0 (offset + byteLength text) rest := by
  induction text generalizing offset with
  | nil => rfl
  | cons c text ih =>
    rw [List.length_cons, List.cons_append, lexemesFrom, if_pos (Nat.succ_ne_zero _),
      Nat.add_sub_cancel, ih, byteLength, Nat.add_assoc]

/-- The reader of tokens reads this lexeme where the text goes on with `rest` after it. -/
def Lexeme.IsRead (l : Lexeme) (rest : List Char) : Prop :=
  ∃ c cs, l.text = c :: cs ∧ Text.isPlainBlank c = false ∧
    readToken l.offset c (cs ++ rest) = .ok (l.token, cs.length)

section

variable {text rest : List Char} {token : Token}

/-- A lexeme that is read begins the lexemes of its text. -/
theorem lexemesFrom_of_isRead (h : Lexeme.IsRead ⟨offset, text, token⟩ rest) :
    lexemesFrom 0 offset (text ++ rest) =
      (lexemesFrom 0 (offset + byteLength text) rest).map (⟨offset, text, token⟩ :: ·) := by
  obtain ⟨c, cs, htext, hc, hread⟩ := h
  obtain rfl : text = c :: cs := htext
  rw [List.cons_append, lexemesFrom_token hc, show readToken offset c (cs ++ rest) = _ from hread]
  show (lexemesFrom cs.length (offset + c.utf8Size) (cs ++ rest) >>= fun more =>
    Except.ok (⟨offset, c :: (cs ++ rest).take cs.length, token⟩ :: more)) = _
  rw [lexemesFrom_append, List.take_left, byteLength, Nat.add_assoc]
  cases lexemesFrom 0 (offset + (c.utf8Size + byteLength cs)) rest <;> rfl

/-- What is wrong with the first token of a text is wrong with the text. -/
theorem lexemesFrom_of_readToken_eq_error {e : Error} (hc : Text.isPlainBlank c = false)
    (h : readToken offset c cs = .error e) : lexemesFrom 0 offset (c :: cs) = .error e := by
  rw [lexemesFrom_token hc, h]
  rfl

/-- A text begins with a blank or with a lexeme that is read there, or what is wrong with it is said
    at its beginning; and so does what is left of it. -/
theorem layout_induction {motive : Nat → List Char → Prop}
    (done : ∀ offset, motive offset [])
    (blank : ∀ offset c cs, Text.isPlainBlank c = true → motive (offset + c.utf8Size) cs →
      motive offset (c :: cs))
    (lexeme : ∀ offset text token rest, Lexeme.IsRead ⟨offset, text, token⟩ rest →
      motive (offset + byteLength text) rest → motive offset (text ++ rest))
    (fault : ∀ offset c cs problem, Text.isPlainBlank c = false →
      readToken offset c cs = .error (.illFormed offset problem) → motive offset (c :: cs))
    (offset : Nat) (cs : List Char) : motive offset cs := by
  -- A lexeme takes up more than its first character, so the induction is on the length of the text.
  induction hn : cs.length using Nat.strongRecOn generalizing offset cs with
  | ind n ih =>
    subst hn
    cases cs with
    | nil => exact done offset
    | cons c cs =>
      cases hc : Text.isPlainBlank c with
      | true => exact blank offset c cs hc (ih cs.length (Nat.lt_succ_self _) _ cs rfl)
      | false =>
        cases hread : readToken offset c cs with
        | error e =>
          obtain ⟨problem, rfl⟩ := exists_of_readToken_eq_error hread
          exact fault offset c cs problem hc hread
        | ok read =>
          obtain ⟨token, count⟩ := read
          have hcount := readToken_length_le hread
          have hrest := lexeme offset (c :: cs.take count) token (cs.drop count)
            ⟨c, cs.take count, rfl, hc, by
              rw [List.take_append_drop, List.length_take, Nat.min_eq_left hcount]
              exact hread⟩
            (ih (cs.drop count).length (by
              rw [List.length_drop, List.length_cons]
              omega) _ _ rfl)
          rwa [List.cons_append, List.take_append_drop] at hrest

end

/-! ## The layout of a source -/

/-- The lexemes `ls` stand in a text that begins at `offset`, with nothing but blanks between them;
    `P` holds of each of them and the text after it. -/
inductive Laid (P : Lexeme → List Char → Prop) : Nat → List Lexeme → List Char → Prop
  | done {offset : Nat} : Laid P offset [] []
  | blank {offset : Nat} {ls : List Lexeme} {c : Char} {cs : List Char}
      (hc : Text.isPlainBlank c = true) (h : Laid P (offset + c.utf8Size) ls cs) :
      Laid P offset ls (c :: cs)
  | lexeme {offset : Nat} {ls : List Lexeme} {text rest : List Char} {token : Token}
      (hl : P ⟨offset, text, token⟩ rest) (h : Laid P (offset + byteLength text) ls rest) :
      Laid P offset (⟨offset, text, token⟩ :: ls) (text ++ rest)

theorem Laid.mono {P Q : Lexeme → List Char → Prop} (hPQ : ∀ l rest, P l rest → Q l rest)
    {ls : List Lexeme} (h : Laid P offset ls cs) : Laid Q offset ls cs := by
  induction h with
  | done => exact .done
  | blank hc _ ih => exact .blank hc ih
  | lexeme hl _ ih => exact .lexeme (hPQ _ _ hl) ih

theorem lexemesFrom_of_laid {ls : List Lexeme} (h : Laid Lexeme.IsRead offset ls cs) :
    lexemesFrom 0 offset cs = .ok ls := by
  induction h with
  | done => rfl
  | blank hc _ ih => rw [lexemesFrom_blank hc, ih]
  | lexeme hl _ ih =>
    rw [lexemesFrom_of_isRead hl, ih]
    rfl

/-- **The lexemes of a text are those that are laid out in it and are read where they stand.** -/
theorem lexemesFrom_eq_ok_iff {ls : List Lexeme} :
    lexemesFrom 0 offset cs = .ok ls ↔ Laid Lexeme.IsRead offset ls cs := by
  refine ⟨fun h => ?_, lexemesFrom_of_laid⟩
  induction offset, cs using layout_induction generalizing ls with
  | done offset =>
    obtain rfl : [] = ls := Except.ok.inj h
    exact .done
  | blank offset c cs hc ih => exact .blank hc (ih (lexemesFrom_blank hc ▸ h))
  | lexeme offset text token rest hread ih =>
    rw [lexemesFrom_of_isRead hread] at h
    obtain ⟨more, hmore, rfl⟩ := Outcome.map_eq_ok_iff.mp h
    exact .lexeme hread (ih hmore)
  | fault offset c cs problem hc hread =>
    rw [lexemesFrom_of_readToken_eq_error hc hread] at h
    cases h

/-- **What is wrong with a text is said at the place where a token would have to begin.** -/
theorem exists_of_lexemesFrom_eq_error {e : Error} (h : lexemesFrom 0 offset cs = .error e) :
    ∃ before after problem, cs = before ++ after ∧
      e = .illFormed (offset + byteLength before) problem := by
  induction offset, cs using layout_induction with
  | done offset => cases h
  | blank offset c cs hc ih =>
    obtain ⟨before, after, problem, rfl, rfl⟩ := ih (lexemesFrom_blank hc ▸ h)
    exact ⟨c :: before, after, problem, rfl, by rw [byteLength, Nat.add_assoc]⟩
  | lexeme offset text token rest hread ih =>
    rw [lexemesFrom_of_isRead hread, Outcome.map_eq_error_iff] at h
    obtain ⟨before, after, problem, rfl, rfl⟩ := ih h
    exact ⟨text ++ before, after, problem, (List.append_assoc ..).symm, by
      rw [byteLength_append, Nat.add_assoc]⟩
  | fault offset c cs problem hc hread =>
    rw [lexemesFrom_of_readToken_eq_error hc hread] at h
    exact ⟨[], c :: cs, problem, rfl, (Except.error.inj h).symm⟩

end RuleSieve.Predicate
