/-
  How tokens are written, and that what is written is read.

  Most tokens have one spelling or two (`Token.spellings`); integers are written in decimal digits,
  strings in either quote with some of their characters escaped, and names as they are (`Writes`).
  A token that is written with a blank after it, or at the end, is read as that token, so that writing
  tokens with blanks between them and reading them again changes nothing (`written_lexemes`).
-/
import RuleSieve.Proofs.Layout
import RuleSieve.Proofs.Pieces
import RuleSieve.Proofs.WideInteger

namespace RuleSieve.Predicate

open Decimal (isDigit)
open Template (IsNameChar)

/-! ## Spellings -/

/-- The words that are no names. -/
def keywords : List String := ["and", "or", "not", "in", "True", "true", "False", "false"]

/-- The spellings of the tokens that have only a few. -/
def Token.spellings : Token → List String
  | .int _ | .float _ | .str _ | .ident _ => []
  | .true => ["True", "true"]
  | .false => ["False", "false"]
  | .and => ["and", "&&"]
  | .or => ["or", "||"]
  | .not => ["not", "!"]
  | .within => ["in"]
  | .plus => ["+"]
  | .minus => ["-"]
  | .star => ["*"]
  | .slash => ["/"]
  | .doubleSlash => ["//"]
  | .percent => ["%"]
  | .equal => ["=="]
  | .notEqual => ["!="]
  | .less => ["<"]
  | .lessEqual => ["<="]
  | .greater => [">"]
  | .greaterEqual => [">="]
  | .tilde => ["=~"]
  | .leftParen => ["("]
  | .rightParen => [")"]
  | .leftBracket => ["["]
  | .rightBracket => ["]"]
  | .comma => [","]
  | .dot => ["."]

/-- A letter or an underscore. -/
def IsWordStart (c : Char) : Prop := ('A' ≤ c ∧ c ≤ 'Z') ∨ ('a' ≤ c ∧ c ≤ 'z') ∨ c = '_'

/-- A letter or an underscore, and after it letters, digits and underscores. -/
def IsWord (text : List Char) : Prop :=
  ∃ c cs, text = c :: cs ∧ IsWordStart c ∧ ∀ d ∈ cs, IsNameChar d

/-- A digit, and after it digits and underscores. -/
def IsNumeral (text : List Char) : Prop :=
  ∃ c cs, text = c :: cs ∧ isDigit c = true ∧ ∀ d ∈ cs, isDigit d = true ∨ d = '_'

/-- The text writes a character of a string in these quotes. -/
inductive WritesChar (quote : Char) : Char → List Char → Prop
  | plain {c : Char} (hquote : c ≠ quote) (hescape : c ≠ '\\') : WritesChar quote c [c]
  | quote : WritesChar quote quote ['\\', quote]
  | backslash : WritesChar quote '\\' ['\\', '\\']
  | newline : WritesChar quote '\n' ['\\', 'n']
  | tab : WritesChar quote '\t' ['\\', 't']
  | carriageReturn : WritesChar quote '\r' ['\\', 'r']

/-- The text writes the characters of a string in these quotes. -/
inductive WritesChars (quote : Char) : List Char → List Char → Prop
  | nil : WritesChars quote [] []
  | cons {c : Char} {value text body : List Char} (hc : WritesChar quote c text)
      (h : WritesChars quote value body) : WritesChars quote (c :: value) (text ++ body)

/-- The text writes the token. -/
inductive Writes : Token → List Char → Prop
  | fixed {token : Token} {spelling : String} (h : spelling ∈ token.spellings) :
      Writes token spelling.toList
  | int {n : Int64} {text : List Char} (h : IsNumeral text)
      (hn : n.toInt = NumberText.runValue 10 text) : Writes (.int n) text
  | str {quote : Char} {s : String} {body : List Char} (hquote : quote = '"' ∨ quote = '\'')
      (h : WritesChars quote s.toList body) : Writes (.str s) (quote :: (body ++ [quote]))
  | word {name : String} (h : IsWord name.toList) (hkeyword : name ∉ keywords) :
      Writes (.ident name) name.toList
  | metavariable {name : String} (h : Template.IsToken name.toList) :
      Writes (.ident name) name.toList

/-- The tokens that can be written: a float has no spelling here, an integer is not negative, and a
    name is a word or a metavariable. -/
def Token.Writable : Token → Prop
  | .float _ => False
  | .int n => 0 ≤ n.toInt
  | .ident name => IsWord name.toList ∧ name ∉ keywords ∨ Template.IsToken name.toList
  | _ => True

/-- The text is at its end or goes on with a blank. -/
def StartsBlank (rest : List Char) : Prop := ∀ c ∈ rest.head?, Text.isPlainBlank c = true

/-- The lexeme is written with a blank after it, or at the end. -/
def Lexeme.IsWritten (l : Lexeme) (rest : List Char) : Prop :=
  Writes l.token l.text ∧ StartsBlank rest

variable {offset : Nat} {c : Char} {cs text rest : List Char}

/-! ## Blanks -/

/-- What holds of the five plain blanks holds of every plain blank. -/
theorem of_isPlainBlank {P : Char → Prop} (hspace : P ' ') (htab : P '\t') (hline : P '\n')
    (hform : P '\x0c') (hreturn : P '\r') (h : Text.isPlainBlank c = true) : P c := by
  simp only [Text.isPlainBlank, Bool.or_eq_true, beq_iff_eq] at h
  rcases h with (((rfl | rfl) | rfl) | rfl) | rfl
  all_goals assumption

/-- No blank belongs to a name. -/
theorem isNameChar_blank (h : Text.isPlainBlank c = true) : isNameChar c = false :=
  of_isPlainBlank (P := fun b => isNameChar b = false) rfl rfl rfl rfl rfl h

theorem isDigitOrMark_blank (h : Text.isPlainBlank c = true) : isDigitOrMark c = false :=
  of_isPlainBlank (P := fun b => isDigitOrMark b = false) rfl rfl rfl rfl rfl h

theorem not_isPlainBlank {p : Char → Bool} (hp : ∀ {b}, Text.isPlainBlank b = true → p b = false)
    (hc : p c = true) : Text.isPlainBlank c = false := by
  refine Bool.eq_false_iff.2 fun hblank => ?_
  rw [hp hblank] at hc
  cases hc

/-! ## Words -/

/-- Words start with a letter or an underscore. -/
theorem isWordStart_iff : IsWordStart c ↔ c.isAlpha = true ∨ c = '_' := by
  have hranges : c.isAlpha = (decide ('A' ≤ c ∧ c ≤ 'Z') || ('a' ≤ c && c ≤ 'z')) := rfl
  simp only [hranges, IsWordStart, Bool.or_eq_true, Bool.and_eq_true, decide_eq_true_eq, or_assoc]

theorem IsWordStart.toNat_ge (h : IsWordStart c) : 65 ≤ c.toNat := by
  rcases h with ⟨h, -⟩ | ⟨h, -⟩ | rfl
  · exact h
  · exact Nat.le_trans (by decide) (show 97 ≤ c.toNat from h)
  · decide

/-- What starts a word may also go on with it. -/
theorem IsWordStart.isNameChar (h : IsWordStart c) : isNameChar c = true := by
  rcases isWordStart_iff.1 h with h | rfl
  · simp [Predicate.isNameChar, Char.isAlphanum, h]
  · rfl

/-- A word goes on as long as there are characters of names. -/
theorem readToken_word (h : IsWordStart c) (offset : Nat) (cs : List Char) :
    readToken offset c cs =
      .ok (wordToken (c :: cs.takeWhile isNameChar), (cs.takeWhile isNameChar).length) := by
  -- digits, quotes and the dollar sign have smaller codes than any letter
  have hge := h.toNat_ge
  have hne {d : Char} (hd : d.toNat < 65) : c ≠ d := fun heq => absurd (heq ▸ hge) (Nat.not_le_of_lt hd)
  have hdigit : isDigit c = false := by
    refine Bool.eq_false_iff.2 fun hdigit => ?_
    have hle : c ≤ '9' := of_decide_eq_true (Bool.and_eq_true_iff.1 hdigit).2
    exact absurd (show c.toNat ≤ 57 from hle) (by omega)
  unfold readToken
  rw [if_neg (by simp [hdigit]), if_neg (by simp [hne]), if_neg (hne (by decide)),
    if_pos (by simpa using isWordStart_iff.1 h)]
  rfl

/-- A word is read to its end. -/
theorem isRead_word (h : IsWord text) (hrest : StartsBlank rest) :
    Lexeme.IsRead ⟨offset, text, wordToken text⟩ rest := by
  obtain ⟨c, cs, rfl, hc, hcs⟩ := h
  have hname : ∀ d ∈ cs, isNameChar d = true := fun d hd => Template.isNameChar_iff.2 (hcs d hd)
  have hend : ∀ d ∈ rest.head?, isNameChar d = false := fun d hd => isNameChar_blank (hrest d hd)
  obtain ⟨htake, -⟩ := Text.span_append hname hend
  refine ⟨c, cs, rfl, not_isPlainBlank isNameChar_blank hc.isNameChar, ?_⟩
  rw [readToken_word hc, htake]

/-! ## Symbols -/

/-- What begins a symbol begins no other token. -/
theorem readToken_symbol (h : (symbol? c).isSome ∨ ∃ d, (doubleSymbol? c d).isSome) :
    Text.isPlainBlank c = false ∧
      ∀ offset cs, readToken offset c cs = readSymbol offset c cs := by
  rcases h with h | ⟨d, h⟩
  · unfold symbol? at h
    split at h
    all_goals first | exact ⟨rfl, fun _ _ => rfl⟩ | cases h
  · unfold doubleSymbol? at h
    split at h
    all_goals first | exact ⟨rfl, fun _ _ => rfl⟩ | cases h

theorem doubleSymbol?_blank {d : Char} (h : Text.isPlainBlank d = true) : doubleSymbol? c d = none := by
  refine Option.eq_none_iff_forall_ne_some.2 fun token htoken => ?_
  unfold doubleSymbol? at htoken
  split at htoken
  all_goals first | cases h | cases htoken

/-- A symbol of one character is read if a blank follows it. -/
theorem isRead_symbol {token : Token} (h : symbol? c = some token) (hrest : StartsBlank rest) :
    Lexeme.IsRead ⟨offset, [c], token⟩ rest := by
  obtain ⟨hblank, hread⟩ := readToken_symbol (c := c) (.inl (by simp [h]))
  have hsingle : rest.head?.bind (doubleSymbol? c) = none := by
    cases rest with
    | nil => rfl
    | cons d rest => exact doubleSymbol?_blank (hrest d rfl)
  refine ⟨c, [], rfl, hblank, ?_⟩
  rw [hread, readSymbol, List.nil_append, hsingle, h]
  rfl

/-- A symbol of two characters is read whatever follows it. -/
theorem isRead_doubleSymbol {d : Char} {token : Token} (h : doubleSymbol? c d = some token) :
    Lexeme.IsRead ⟨offset, [c, d], token⟩ rest := by
  obtain ⟨hblank, hread⟩ := readToken_symbol (c := c) (.inr ⟨d, by simp [h]⟩)
  refine ⟨c, [d], rfl, hblank, ?_⟩
  rw [hread, readSymbol, List.singleton_append, List.head?_cons, Option.bind_some, h]
  rfl

theorem isWord_of_all (hc : (c.isAlpha || c == '_') = true) (hcs : cs.all isNameChar = true) :
    IsWord (c :: cs) :=
  ⟨c, cs, rfl, isWordStart_iff.2 (by simpa using hc), fun d hd =>
    Template.isNameChar_iff.1 (List.all_eq_true.1 hcs d hd)⟩

/-- The spellings of a token are words and symbols. -/
theorem spelling_cases {token : Token} {spelling : String} (h : spelling ∈ token.spellings) :
    (IsWord spelling.toList ∧ wordToken spelling.toList = token) ∨
      (∃ c, spelling.toList = [c] ∧ symbol? c = some token) ∨
      ∃ c d, spelling.toList = [c, d] ∧ doubleSymbol? c d = some token := by
  cases token with
  | int | float | str | ident => cases h
  | true | false =>
    rcases List.mem_pair.1 h with rfl | rfl
    all_goals exact .inl ⟨isWord_of_all rfl rfl, rfl⟩
  | and | or =>
    rcases List.mem_pair.1 h with rfl | rfl
    · exact .inl ⟨isWord_of_all rfl rfl, rfl⟩
    · exact .inr (.inr ⟨_, _, rfl, rfl⟩)
  | not =>
    rcases List.mem_pair.1 h with rfl | rfl
    · exact .inl ⟨isWord_of_all rfl rfl, rfl⟩
    · exact .inr (.inl ⟨_, rfl, rfl⟩)
  | within =>
    obtain rfl := List.mem_singleton.1 h
    exact .inl ⟨isWord_of_all rfl rfl, rfl⟩
  | doubleSlash | equal | notEqual | lessEqual | greaterEqual | tilde =>
    obtain rfl := List.mem_singleton.1 h
    exact .inr (.inr ⟨_, _, rfl, rfl⟩)
  | _ =>
    obtain rfl := List.mem_singleton.1 h
    exact .inr (.inl ⟨_, rfl, rfl⟩)

/-- Every spelling of a token without a value is read as the token. -/
theorem isRead_spelling {token : Token} {spelling : String} (h : spelling ∈ token.spellings)
    (hrest : StartsBlank rest) : Lexeme.IsRead ⟨offset, spelling.toList, token⟩ rest := by
  rcases spelling_cases h with ⟨hword, rfl⟩ | ⟨c, hc, hsymbol⟩ | ⟨c, d, hcd, hsymbol⟩
  · exact isRead_word hword hrest
  · rw [hc]
    exact isRead_symbol hsymbol hrest
  · rw [hcd]
    exact isRead_doubleSymbol hsymbol

/-! ## Names -/

/-- A word that is no keyword is a name. -/
theorem wordToken_of_not_mem {name : String} (h : name ∉ keywords) :
    wordToken name.toList = .ident name := by
  unfold wordToken
  rw [String.ofList_toList]
  split
  all_goals first | exact absurd (by decide) h | rfl

/-- A metavariable is read up to the blank behind it, with its dots. -/
theorem readMetavariable_append {dots name : List Char} (hdots : Template.IsDots dots) (hne : name ≠ [])
    (hname : ∀ c ∈ name, IsNameChar c) (hrest : StartsBlank rest) (offset : Nat) :
    readMetavariable offset (dots ++ name ++ rest) =
      .ok (.ident (String.ofList ('$' :: (dots ++ name))), (dots ++ name).length) := by
  have hcount : (if ['.', '.', '.'].isPrefixOf (dots ++ name ++ rest) then 3 else 0) = dots.length := by
    rcases hdots with rfl | rfl
    · obtain ⟨c, name, rfl⟩ := List.exists_cons_of_ne_nil hne
      have hc : ('.' == c) = false := by
        refine beq_eq_false_iff_ne.2 fun hc => ?_
        exact Template.not_isNameChar_dot (hc ▸ hname c List.mem_cons_self)
      simp [List.isPrefixOf, hc]
    · rfl
  have htake : (name ++ rest).takeWhile isNameChar = name := (Text.span_append
    (fun c hc => Template.isNameChar_iff.2 (hname c hc)) fun c hc => isNameChar_blank (hrest c hc)).1
  unfold readMetavariable
  rw [hcount]
  simp only [List.append_assoc, List.drop_left, htake]
  rw [if_neg (by simpa using hne), ← List.append_assoc, ← List.length_append, List.take_left]

/-- Every metavariable that templates know is read as a name. -/
theorem isRead_metavariable {name : String} (h : Template.IsToken name.toList)
    (hrest : StartsBlank rest) : Lexeme.IsRead ⟨offset, name.toList, .ident name⟩ rest := by
  obtain ⟨dots, cs, hname, hdots, hne, hcs⟩ := h
  refine ⟨'$', dots ++ cs, hname, rfl, ?_⟩
  show readMetavariable offset (dots ++ cs ++ rest) = _
  rw [readMetavariable_append hdots hne hcs hrest, ← hname, String.ofList_toList]

/-! ## Integers -/

/-- A number before a blank has no fraction. -/
theorem fractionLength_blank (h : StartsBlank rest) : fractionLength rest = 0 := by
  unfold fractionLength
  split
  · exact absurd (h '.' rfl) (by decide)
  · rfl

/-- A number before a blank has no exponent. -/
theorem exponentLength_blank (h : StartsBlank rest) : exponentLength rest = 0 := by
  unfold exponentLength
  split
  · next mark cs =>
    have hmark := h mark rfl
    refine if_neg fun he => ?_
    rcases (by simpa using he : mark = 'e' ∨ mark = 'E') with rfl | rfl
    all_goals cases hmark
  · rfl

/-- A run of digits is a number, if a blank follows. -/
theorem numberLength_append (htext : ∀ c ∈ text, isDigitOrMark c = true) (hrest : StartsBlank rest) :
    (text ++ rest).takeWhile isDigitOrMark = text ∧ numberLength (text ++ rest) = text.length := by
  have htake : (text ++ rest).takeWhile isDigitOrMark = text :=
    (Text.span_append htext fun c hc => isDigitOrMark_blank (hrest c hc)).1
  refine ⟨htake, ?_⟩
  simp only [numberLength, htake, List.drop_left, fractionLength_blank hrest, Nat.add_zero,
    exponentLength_blank hrest]

/-- The integer that a numeral is read as. -/
theorem readNumber_append {n : Int64} (h : IsNumeral text)
    (hn : n.toInt = NumberText.runValue 10 text) (hrest : StartsBlank rest) (offset : Nat) :
    readNumber offset (text ++ rest) = .ok (.int n, text.length) := by
  obtain ⟨c, cs, rfl, hc, hcs⟩ := h
  have hdigits : ∀ d ∈ c :: cs, isDigit d = true ∨ d = '_' := List.forall_mem_cons.2 ⟨.inl hc, hcs⟩
  obtain ⟨htake, hlength⟩ := numberLength_append
    (fun d hd => by simpa [isDigitOrMark] using hdigits d hd) hrest
  have hvalue : Decimal.value ((c :: cs).filter (· != '_')) = n.toInt.toNat := by
    rw [NumberText.value_eq_runValue, NumberText.runValue, NumberText.digitsIn_filter,
      ← NumberText.runValue]
    · omega
    · intro d hd
      obtain ⟨hmem, hne⟩ := List.mem_filter.1 hd
      exact (hdigits d hmem).resolve_right (by simpa using hne)
  have hlt : n.toInt.toNat < Word.half := by
    have hfits := (Word.fits_toInt n).2
    omega
  have hofNat : Int64.ofNat n.toInt.toNat = n := by
    rw [← Int64.ofInt_eq_ofNat, Int.toNat_of_nonneg (by omega), Int64.ofInt_toInt]
  rw [readNumber_eq, hlength, List.take_left, htake]
  dsimp only
  rw [hvalue, if_pos rfl, if_pos hlt, hofNat]

/-- A numeral is read as the integer of its digits. -/
theorem isRead_int {n : Int64} (h : IsNumeral text) (hn : n.toInt = NumberText.runValue 10 text)
    (hrest : StartsBlank rest) : Lexeme.IsRead ⟨offset, text, .int n⟩ rest := by
  have hread := readNumber_append h hn hrest offset
  obtain ⟨c, cs, rfl, hc, -⟩ := h
  refine ⟨c, cs, rfl, not_isPlainBlank isDigitOrMark_blank (by simp [isDigitOrMark, hc]), ?_⟩
  unfold readToken
  rw [if_pos hc, show readNumber offset (c :: (cs ++ rest)) = _ from hread]
  rfl

/-! ## Strings -/

/-- A text in quotes is read back whatever follows it. -/
theorem readString_of_writes {quote : Char} (hquote : quote = '"' ∨ quote = '\'')
    {value body : List Char} (h : WritesChars quote value body) (rest : List Char) :
    readString quote (body ++ quote :: rest) = some (value, body.length + 1) := by
  have hescape : '\\' ≠ quote := by rcases hquote with rfl | rfl <;> decide
  induction h with
  | nil => exact readString_quote
  | @cons c value text body hc _ ih =>
    -- every escape is a backslash and one character, and is read alike
    have hescaped (e : Char) : readString quote (['\\', e] ++ body ++ quote :: rest) =
        some (unescape e :: value, (['\\', e] ++ body).length + 1) := by
      show readString quote ('\\' :: e :: (body ++ quote :: rest)) = _
      rw [readString_escape hescape, ih]
      rfl
    cases hc with
    | plain hne hplain =>
      rw [List.singleton_append, List.cons_append, readString_plain hne hplain, ih]
      rfl
    | quote => rcases hquote with rfl | rfl <;> exact hescaped _
    | backslash => exact hescaped '\\'
    | newline => exact hescaped 'n'
    | tab => exact hescaped 't'
    | carriageReturn => exact hescaped 'r'

/-- A text is read back from between either kind of quotes. -/
theorem isRead_str {quote : Char} (hquote : quote = '"' ∨ quote = '\'') {s : String} {body : List Char}
    (h : WritesChars quote s.toList body) :
    Lexeme.IsRead ⟨offset, quote :: (body ++ [quote]), .str s⟩ rest := by
  refine ⟨quote, body ++ [quote], rfl, by rcases hquote with rfl | rfl <;> rfl, ?_⟩
  have hread := readString_of_writes hquote h rest
  have hdigit : isDigit quote = false := by rcases hquote with rfl | rfl <;> rfl
  unfold readToken
  rw [if_neg (by simp [hdigit]), if_pos (by simpa using hquote), List.append_assoc,
    List.singleton_append, hread]
  simp

/-! ## What is written is read -/

/-- **A token that is written with a blank after it, or at the end, is read as that token.** -/
theorem Lexeme.IsWritten.isRead {l : Lexeme} (h : l.IsWritten rest) : l.IsRead rest := by
  obtain ⟨offset, text, token⟩ := l
  obtain ⟨hwrites, hrest⟩ : Writes token text ∧ StartsBlank rest := h
  cases hwrites with
  | fixed h => exact isRead_spelling h hrest
  | int h hn => exact isRead_int h hn hrest
  | str hquote h => exact isRead_str hquote h
  | @word name h hkeyword =>
    have hread : Lexeme.IsRead ⟨offset, name.toList, wordToken name.toList⟩ rest :=
      isRead_word h hrest
    rwa [wordToken_of_not_mem hkeyword] at hread
  | metavariable h => exact isRead_metavariable h hrest

/-! ## What can be written -/

/-- Every text can be written between quotes. -/
theorem exists_writesChars {quote : Char} (value : List Char) :
    ∃ body, WritesChars quote value body := by
  induction value with
  | nil => exact ⟨[], .nil⟩
  | cons c value ih =>
    obtain ⟨body, hbody⟩ := ih
    by_cases hquote : c = quote
    · subst hquote
      exact ⟨_, .cons .quote hbody⟩
    · by_cases hescape : c = '\\'
      · subst hescape
        exact ⟨_, .cons .backslash hbody⟩
      · exact ⟨_, .cons (.plain hquote hescape) hbody⟩

theorem isDigit_digits (k : Nat) : ∀ c ∈ Decimal.digits k, isDigit c = true :=
  fun _ hc => Nat.isDigit_of_mem_toDigits (by decide) (by decide) hc

theorem isNumeral_digits (k : Nat) : IsNumeral (Decimal.digits k) := by
  obtain ⟨c, cs, h⟩ := List.exists_cons_of_ne_nil (l := Decimal.digits k) Nat.toDigits_ne_nil
  have hdigits := h ▸ isDigit_digits k
  refine ⟨c, cs, h, hdigits c List.mem_cons_self, fun d hd => .inl ?_⟩
  exact hdigits d (List.mem_cons_of_mem c hd)

/-- The digits of a number write that number. -/
theorem value_digits (k : Nat) : Decimal.value (Decimal.digits k) = k := by
  have hvalue : Decimal.value (Decimal.digits k) = Nat.ofDigitChars 10 (Nat.toDigits 10 k) 0 := by
    rw [Nat.ofDigitChars_eq_foldl, Decimal.value, Decimal.valueFrom]
    simp only [Nat.mul_comm, Decimal.digitValue, Decimal.digits]
  rw [hvalue, Nat.ofDigitChars_ten_toDigits]

/-- The decimal digits of a number write the number. -/
theorem runValue_digits (k : Nat) : NumberText.runValue 10 (Decimal.digits k) = k := by
  rw [← NumberText.value_eq_runValue (isDigit_digits k), value_digits]

/-- The tokens that can be written are those that some text writes. -/
theorem writable_iff {token : Token} : token.Writable ↔ ∃ text, Writes token text := by
  constructor
  · intro h
    cases token with
    | float x => exact h.elim
    | int n =>
      refine ⟨_, .int (isNumeral_digits n.toInt.toNat) ?_⟩
      rw [runValue_digits]
      exact (Int.toNat_of_nonneg h).symm
    | str s =>
      obtain ⟨body, hbody⟩ : ∃ body, WritesChars '"' s.toList body := exists_writesChars s.toList
      exact ⟨_, .str (.inl rfl) hbody⟩
    | ident name =>
      rcases h with ⟨hword, hkeyword⟩ | htoken
      · exact ⟨_, .word hword hkeyword⟩
      · exact ⟨_, .metavariable htoken⟩
    | _ => exact ⟨_, .fixed List.mem_cons_self⟩
  · rintro ⟨text, h⟩
    cases h with
    | fixed h =>
      cases token with
      | int | float | ident => cases h
      | _ => exact trivial
    | int _ hn =>
      show 0 ≤ Int64.toInt _
      omega
    | str => exact trivial
    | word h hkeyword => exact .inl ⟨h, hkeyword⟩
    | metavariable h => exact .inr h

/-- Tokens in spellings of theirs can be written one after the other. -/
theorem exists_laid (offset : Nat) {tokens : List Token} {texts : List (List Char)}
    (h : List.Forall₂ Writes tokens texts) :
    ∃ ls cs, ls.map Lexeme.token = tokens ∧ ls.map Lexeme.text = texts ∧
      Laid Lexeme.IsWritten offset ls cs := by
  induction h generalizing offset with
  | nil => exact ⟨[], [], rfl, rfl, .done⟩
  | @cons token text tokens texts hwrites _ ih =>
    obtain ⟨ls, cs, rfl, rfl, hlaid⟩ := ih (offset + byteLength text + 1)
    refine ⟨⟨offset, text, token⟩ :: ls, text ++ ' ' :: cs, rfl, rfl, ?_⟩
    exact .lexeme ⟨hwrites, fun c hc => by cases hc; rfl⟩ (.blank rfl hlaid)

/-- **Writing tokens and reading them again changes nothing.**  All tokens but floats, negative
    integers and names that are neither words nor metavariables have spellings; in any of theirs they
    can be written one after the other; and however they are written, with blanks between them, they
    are read again, with the same texts at the same offsets. -/
theorem written_lexemes :
    (∀ token : Token, token.Writable ↔ ∃ text, Writes token text) ∧
      (∀ tokens texts, List.Forall₂ Writes tokens texts → ∃ ls cs, ls.map Lexeme.token = tokens ∧
        ls.map Lexeme.text = texts ∧ Laid Lexeme.IsWritten 0 ls cs) ∧
      ∀ ls cs, Laid Lexeme.IsWritten 0 ls cs → lexemes cs = .ok ls :=
  ⟨fun _ => writable_iff, fun _ _ h => exists_laid 0 h,
    fun _ _ h => lexemesFrom_of_laid (h.mono fun _ _ hl => hl.isRead)⟩

/-- A quote within a string is escaped, and the letter before it takes two bytes. -/
theorem written_lexemes_quoted :
    Laid Lexeme.IsWritten 0 [⟨0, "'é\\''".toList, .str "é'"⟩, ⟨7, "&&".toList, .and⟩,
        ⟨10, "$...A".toList, .ident "$...A"⟩] "'é\\'' && $...A".toList ∧
      lexemes "'é\\'' && $...A".toList = .ok [⟨0, "'é\\''".toList, .str "é'"⟩,
        ⟨7, "&&".toList, .and⟩, ⟨10, "$...A".toList, .ident "$...A"⟩] := by
  have hchars : WritesChars '\'' ['é', '\''] (['é'] ++ (['\\', '\''] ++ [])) :=
    .cons (.plain (by decide) (by decide)) (.cons .quote .nil)
  have hstr : Writes (.str "é'") "'é\\''".toList := .str (s := "é'") (.inr rfl) hchars
  have hand : Writes .and "&&".toList := .fixed (by decide)
  have hname : Writes (.ident "$...A") "$...A".toList := .metavariable
    ⟨['.', '.', '.'], ['A'], rfl, .inr rfl, by decide, by simp [IsNameChar]⟩
  have hlaid : Laid Lexeme.IsWritten 0 [⟨0, "'é\\''".toList, .str "é'"⟩, ⟨7, "&&".toList, .and⟩,
      ⟨10, "$...A".toList, .ident "$...A"⟩]
      ("'é\\''".toList ++ ' ' :: ("&&".toList ++ ' ' :: ("$...A".toList ++ []))) :=
    .lexeme ⟨hstr, by simp [StartsBlank, Text.isPlainBlank]⟩ (.blank rfl
      (.lexeme ⟨hand, by simp [StartsBlank, Text.isPlainBlank]⟩ (.blank rfl
        (.lexeme ⟨hname, by simp [StartsBlank]⟩ .done))))
  exact ⟨hlaid, written_lexemes.2.2 _ _ hlaid⟩

end RuleSieve.Predicate
