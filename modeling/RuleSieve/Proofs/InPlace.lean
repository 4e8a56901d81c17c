/-
  Reading tokens from the bytes of a source.

  The reader of tokens goes through the characters of a source.  The same can be done in place, with
  an index into the bytes: a test for an ASCII character looks at a single byte, runs of digits and
  letters are passed over byte by byte, and characters are decoded only where a slice is cut out.
  Such a reader has no answer where a slice would cut through a character, or where its loop does not
  come to an end.  It always has one, and it is that of the reader of characters
  (`InPlace.run_eq`).
-/
import RuleSieve.Proofs.Boundary

namespace RuleSieve.Predicate

open Decimal (isDigit)

/-! ## The reader in place -/

namespace InPlace

/-- A token with the index after it, or what is wrong with it; nothing if a slice cannot be cut out. -/
abbrev Reading := Option (Except Error (Token × Nat))

variable (source : String)

/-- Do a point and a digit stand at the index? -/
def hasFraction (index : Nat) : Bool :=
  (byteAt? source index).any (· == '.') && (byteAt? source (index + 1)).any isDigit

/-- The index after a fraction, if there is one. -/
def afterFraction (index : Nat) : Nat :=
  if hasFraction source index then skipWhile source isDigitOrMark (index + 1) else index

/-- The number of signs at the index, which is one at most. -/
def signWidth (index : Nat) : Nat :=
  if (byteAt? source index).any fun c => c == '+' || c == '-' then 1 else 0

/-- Do the mark of an exponent and a digit stand at the index, or the mark, a sign and a digit? -/
def hasExponent (index : Nat) : Bool :=
  ((byteAt? source index).any fun c => c == 'e' || c == 'E') &&
    (byteAt? source (index + 1 + signWidth source (index + 1))).any isDigit

/-- The index after an exponent, if there is one. -/
def afterExponent (index : Nat) : Nat :=
  if hasExponent source index then
    skipWhile source isDigitOrMark (index + 1 + signWidth source (index + 1))
  else index

/-- Reads a number. -/
def number (start : Nat) : Reading :=
  let whole := skipWhile source isDigitOrMark start
  let fraction := afterFraction source whole
  let stop := afterExponent source fraction
  (slice? source start stop).map fun text =>
    let digits := text.filter (· != '_')
    if hasFraction source whole || hasExponent source fraction then
      .ok (.float ((Binary64.read? digits).getD Binary64.nan), stop)
    else if Decimal.value digits < Word.half then
      .ok (.int (Int64.ofNat (Decimal.value digits)), stop)
    else .error (.illFormed start (.integerTooLarge (String.ofList digits)))

/-- The value of a string, and how many bytes from `offset` on it has with its closing quote. -/
def scanString (quote : Char) (offset : Nat) : List Char → Option (List Char × Nat)
  | [] => none
  | c :: cs =>
    if c = quote then some ([], offset + 1)
    else
      match c, cs with
      | '\\', [] => none
      | '\\', escaped :: cs =>
        (scanString quote (offset + 1 + escaped.utf8Size) cs).map fun (value, stop) =>
          (unescape escaped :: value, stop)
      | c, cs =>
        (scanString quote (offset + c.utf8Size) cs).map fun (value, stop) => (c :: value, stop)

/-- Reads a string. -/
def string (quote : Char) (start : Nat) : Reading :=
  (slice? source (start + 1) source.utf8ByteSize).map fun text =>
    match scanString quote 0 text with
    | some (value, length) => .ok (.str (String.ofList value), start + 1 + length)
    | none => .error (.illFormed start .unterminatedString)

/-- The index after the three dots at the index, if they stand there. -/
def afterDots (index : Nat) : Option Nat :=
  (slice? source index source.utf8ByteSize).map fun text =>
    if ['.', '.', '.'].isPrefixOf text then index + 3 else index

/-- Reads a metavariable. -/
def metavariable (start : Nat) : Reading :=
  (afterDots source (start + 1)).bind fun name =>
    let stop := skipWhile source isNameChar name
    if stop = name then some (.error (.illFormed start .unnamedMetavariable))
    else (slice? source start stop).map fun text => .ok (.ident (String.ofList text), stop)

/-- Reads a word. -/
def word (start : Nat) : Reading :=
  let stop := skipWhile source isNameChar start
  (slice? source start stop).map fun text => .ok (wordToken text, stop)

/-- Reads a symbol. -/
def symbol (start : Nat) : Reading :=
  let first := byteAt? source start
  let second := byteAt? source (start + 1)
  match first.bind fun c => second.bind (doubleSymbol? c), first.bind symbol? with
  | some token, _ => some (.ok (token, start + 2))
  | none, some token => some (.ok (token, start + 1))
  | none, none =>
    (slice? source start source.utf8ByteSize).map fun text =>
      .error (.illFormed start (.unexpectedCharacter (text.head?.getD '?')))

/-- Reads the token that begins with the byte `c`. -/
def token (c : Char) (start : Nat) : Reading :=
  if isDigit c then number source start
  else if c = '"' || c = '\'' then string source c start
  else if c = '$' then metavariable source start
  else if c.isAlpha || c = '_' then word source start
  else symbol source start

/-- Reads all tokens from the index on, each with the indices at which it begins and ends, if the
    loop makes no more than so many turns. -/
def run : (turns index : Nat) → Option (Except Error (List (Nat × Nat × Token)))
  | turns, index =>
    match byteAt? source index, turns with
    | none, _ => some (.ok [])
    | some _, 0 => none
    | some c, turns + 1 =>
      if Text.isPlainBlank c then run turns (index + 1)
      else
        match token source c index with
        | none => none
        | some (.error e) => some (.error e)
        | some (.ok (token, stop)) =>
          (run turns stop).map (Except.map ((index, stop, token) :: ·))

/-! ## Tests of single bytes -/

section

variable {source} {index start : Nat} {c : Char} {cs : List Char}

/-- Digits are single bytes. -/
theorem isAscii_isDigit : IsAscii isDigit := by
  intro c hc
  have hle : c ≤ '9' := of_decide_eq_true (Bool.and_eq_true_iff.1 hc).2
  exact Nat.lt_of_le_of_lt (show c.toNat ≤ 57 from hle) (by decide)

theorem isAscii_beq {d : Char} (hd : d.toNat < 128) : IsAscii (· == d) :=
  fun _ hc => beq_iff_eq.1 hc ▸ hd

theorem isAscii_or {p q : Char → Bool} (hp : IsAscii p) (hq : IsAscii q) :
    IsAscii fun c => p c || q c :=
  fun c hc => (Bool.or_eq_true_iff.1 hc).elim (hp c) (hq c)

theorem isAscii_isDigitOrMark : IsAscii isDigitOrMark :=
  isAscii_or isAscii_isDigit (isAscii_beq (by decide))

theorem isAscii_isSign : IsAscii fun c => c == '+' || c == '-' :=
  isAscii_or (isAscii_beq (by decide)) (isAscii_beq (by decide))

theorem isAscii_isExponentMark : IsAscii fun c => c == 'e' || c == 'E' :=
  isAscii_or (isAscii_beq (by decide)) (isAscii_beq (by decide))

/-- Letters of words are single bytes. -/
theorem isAscii_isAlpha : IsAscii Char.isAlpha := by
  refine isAscii_or (fun c hc => ?_) (fun c hc => ?_)
  · have hle : c.val ≤ 90 := (of_decide_eq_true hc).2
    exact Nat.lt_of_le_of_lt (show c.toNat ≤ 90 from hle) (by decide)
  · have hle : c.val ≤ 122 := of_decide_eq_true (Bool.and_eq_true_iff.1 hc).2
    exact Nat.lt_of_le_of_lt (show c.toNat ≤ 122 from hle) (by decide)

theorem isAscii_isNameChar : IsAscii isNameChar :=
  isAscii_or (isAscii_or isAscii_isAlpha isAscii_isDigit) (isAscii_beq (by decide))

/-- Blanks between tokens are single bytes. -/
theorem isAscii_isPlainBlank : IsAscii Text.isPlainBlank :=
  isAscii_or (isAscii_or (isAscii_or (isAscii_or (isAscii_beq (by decide)) (isAscii_beq (by decide)))
    (isAscii_beq (by decide))) (isAscii_beq (by decide))) (isAscii_beq (by decide))

/-! ## Numbers -/

/-- The fraction that is found byte by byte is the one of the character list. -/
theorem afterFraction_eq (h : Leaves source index cs) :
    (hasFraction source index = true ↔ 0 < fractionLength cs) ∧
      afterFraction source index = index + fractionLength cs ∧
      Leaves source (index + fractionLength cs) (cs.drop (fractionLength cs)) := by
  by_cases hpoint : ∃ c rest, cs = '.' :: c :: rest ∧ isDigit c = true
  · obtain ⟨c, rest, rfl, hc⟩ := hpoint
    have htail := h.tail (by decide)
    have hhas : hasFraction source index = true := by
      rw [hasFraction, h.any_byteAt? (isAscii_beq (by decide)), htail.any_byteAt? isAscii_isDigit]
      simpa using hc
    have hlength : fractionLength ('.' :: c :: rest) =
        1 + ((c :: rest).takeWhile isDigitOrMark).length := if_pos hc
    obtain ⟨hskip, hleft⟩ := htail.skipWhile_eq isAscii_isDigitOrMark
    rw [afterFraction, if_pos hhas, hskip, hlength, ← Nat.add_assoc, Nat.add_comm 1,
      List.drop_succ_cons, Nat.add_right_comm]
    rw [Nat.add_right_comm] at hleft
    exact ⟨⟨fun _ => Nat.succ_pos _, fun _ => hhas⟩, rfl, hleft⟩
  · have hnone : fractionLength cs = 0 := by
      unfold fractionLength
      split
      · next c rest => exact if_neg fun hc => hpoint ⟨c, rest, rfl, hc⟩
      · rfl
    have hhas : hasFraction source index = false := by
      refine Bool.eq_false_iff.2 fun hhas => hpoint ?_
      obtain ⟨hfirst, hsecond⟩ := Bool.and_eq_true_iff.1 hhas
      rw [h.any_byteAt? (isAscii_beq (by decide))] at hfirst
      match cs, hfirst with
      | c :: rest, hfirst =>
        obtain rfl : c = '.' := beq_iff_eq.1 hfirst
        rw [(h.tail (by decide)).any_byteAt? isAscii_isDigit] at hsecond
        match rest, hsecond with
        | d :: rest, hsecond => exact ⟨d, rest, rfl, hsecond⟩
    rw [afterFraction, hhas, hnone]
    exact ⟨by simp, rfl, h⟩

/-- The number of signs that a text begins with, which is one at most. -/
def signLength : List Char → Nat
  | c :: _ => if c = '+' || c = '-' then 1 else 0
  | [] => 0

/-- An exponent needs a digit, behind its sign if it has one. -/
theorem exponentLength_cons (mark : Char) (cs : List Char) :
    exponentLength (mark :: cs) =
      if mark = 'e' || mark = 'E' then
        if (cs.drop (signLength cs)).head?.any isDigit then
          1 + signLength cs + ((cs.drop (signLength cs)).takeWhile isDigitOrMark).length
        else 0
      else 0 := by
  show (if mark = 'e' || mark = 'E' then
    match cs.drop (signLength cs) with
    | c :: more =>
      if isDigit c then 1 + signLength cs + ((c :: more).takeWhile isDigitOrMark).length else 0
    | [] => 0
    else 0) = _
  cases cs.drop (signLength cs) <;> rfl

/-- The sign of an exponent that is found byte by byte is the one of the character list. -/
theorem signWidth_eq (h : Leaves source index cs) :
    signWidth source index = signLength cs ∧
      Leaves source (index + signLength cs) (cs.drop (signLength cs)) := by
  have hwidth : signWidth source index =
      if cs.head?.any fun c => c == '+' || c == '-' then 1 else 0 := by
    rw [signWidth, h.any_byteAt? isAscii_isSign]
  cases cs with
  | nil => exact ⟨hwidth, h⟩
  | cons c rest =>
    by_cases hc : c = '+' ∨ c = '-'
    · have hlength : signLength (c :: rest) = 1 := if_pos (by simpa using hc)
      rw [hlength, hwidth]
      exact ⟨if_pos (by simpa using hc), h.tail (by rcases hc with rfl | rfl <;> decide)⟩
    · have hlength : signLength (c :: rest) = 0 := if_neg (by simpa using hc)
      rw [hlength, hwidth]
      exact ⟨if_neg (by simpa using hc), h⟩

/-- The exponent that is found byte by byte is the one of the character list. -/
theorem afterExponent_eq (h : Leaves source index cs) :
    (hasExponent source index = true ↔ 0 < exponentLength cs) ∧
      afterExponent source index = index + exponentLength cs ∧
      Leaves source (index + exponentLength cs) (cs.drop (exponentLength cs)) := by
  -- there are three ways to have no exponent, and they end alike
  have hnone (hhas : hasExponent source index = false) (hlength : exponentLength cs = 0) :
      (hasExponent source index = true ↔ 0 < exponentLength cs) ∧
        afterExponent source index = index + exponentLength cs ∧
        Leaves source (index + exponentLength cs) (cs.drop (exponentLength cs)) := by
    rw [afterExponent, hhas, hlength]
    exact ⟨by simp, rfl, h⟩
  have hmark := h.any_byteAt? isAscii_isExponentMark
  match cs, h, hmark, hnone with
  | [], _, hmark, hnone => exact hnone (by rw [hasExponent, hmark]; rfl) rfl
  | mark :: rest, h, hmark, hnone =>
    by_cases hc : mark = 'e' ∨ mark = 'E'
    · have htail := h.tail (by rcases hc with rfl | rfl <;> decide)
      obtain ⟨hsign, hafter⟩ := signWidth_eq htail
      have hhas : hasExponent source index = (rest.drop (signLength rest)).head?.any isDigit := by
        rw [hasExponent, hmark, hsign, hafter.any_byteAt? isAscii_isDigit]
        simp [hc]
      cases hdigit : (rest.drop (signLength rest)).head?.any isDigit with
      | false =>
        refine hnone (hhas.trans hdigit) ?_
        rw [exponentLength_cons, hdigit]
        simp
      | true =>
        obtain ⟨hskip, hleft⟩ := hafter.skipWhile_eq isAscii_isDigitOrMark
        have hlength : exponentLength (mark :: rest) = 1 + signLength rest +
            ((rest.drop (signLength rest)).takeWhile isDigitOrMark).length := by
          rw [exponentLength_cons, hdigit, if_pos (by simpa using hc), if_pos rfl]
        rw [afterExponent, hhas, hdigit, if_pos rfl, hsign, hskip, hlength]
        refine ⟨iff_of_true rfl (by omega), by omega, ?_⟩
        rw [List.drop_drop, Nat.add_assoc index, Nat.add_assoc index] at hleft
        rw [show (mark :: rest).drop _ = rest.drop _ by
          rw [Nat.add_assoc, Nat.add_comm 1, List.drop_succ_cons]]
        exact hleft
    · refine hnone (by rw [hasExponent, hmark]; simp [hc]) ?_
      rw [exponentLength_cons, if_neg (by simpa using hc)]

/-- The number that is read in place is the one that is read from the characters. -/
theorem number_eq (h : Leaves source start cs) :
    number source start = some ((readNumber start cs).map fun (token, count) =>
      (token, start + byteLength (cs.take count))) := by
  obtain ⟨hskip, hwhole⟩ := h.skipWhile_eq isAscii_isDigitOrMark
  obtain ⟨hfraction, hafterFraction, hleft⟩ := afterFraction_eq hwhole
  obtain ⟨hexponent, hafterExponent, hend⟩ := afterExponent_eq hleft
  rw [List.drop_drop] at hexponent hafterExponent hend
  rw [← List.take_append_drop (numberLength cs) cs] at h
  have hlast : Leaves source (afterExponent source (afterFraction source
      (skipWhile source isDigitOrMark start))) (cs.drop (numberLength cs)) := by
    rw [List.drop_drop] at hend
    rw [hskip, hafterFraction, hafterExponent]
    exact hend
  -- a number with more to it than its first run of digits has a fraction or an exponent
  have hfloat : (hasFraction source (skipWhile source isDigitOrMark start) ||
      hasExponent source (afterFraction source (skipWhile source isDigitOrMark start))) = true ↔
        numberLength cs ≠ (cs.takeWhile isDigitOrMark).length := by
    rw [hskip, hafterFraction, Bool.or_eq_true, hfraction, hexponent, numberLength]
    omega
  rw [number, h.slice?_eq hlast, h.stop_eq hlast, Option.map_some, readNumber_eq]
  extract_lets digits
  by_cases hwhole : numberLength cs = (cs.takeWhile isDigitOrMark).length
  · rw [if_neg (by rw [hfloat]; exact not_not_intro hwhole), if_pos hwhole]
    split <;> rfl
  · rw [if_pos (hfloat.2 hwhole), if_neg hwhole]
    rfl

/-! ## Strings -/

theorem scanString_quote (quote : Char) (offset : Nat) (cs : List Char) :
    scanString quote offset (quote :: cs) = some ([], offset + 1) := by
  unfold scanString
  exact if_pos rfl

/-- A character that is neither the quote nor an escape stands for itself. -/
theorem scanString_plain {quote : Char} (hquote : c ≠ quote) (hescape : c ≠ '\\') (offset : Nat) :
    scanString quote offset (c :: cs) =
      (scanString quote (offset + c.utf8Size) cs).map fun (value, stop) => (c :: value, stop) := by
  cases cs <;> simp [scanString, hquote, hescape]

/-- Bytes are counted through a string as characters are. -/
theorem scanString_eq {quote : Char} (hsize : quote.utf8Size = 1) (offset : Nat) (cs : List Char) :
    scanString quote offset cs =
      (readString quote cs).map fun (value, count) => (value, offset + byteLength (cs.take count)) := by
  induction cs using readString.induct quote generalizing offset with
  | case1 => rfl
  | case2 cs =>
    rw [readString_quote, scanString_quote, Option.map_some]
    simp only [List.take_succ_cons, List.take_zero, byteLength, hsize]
  | case3 hquote => simp [scanString, readString, hquote]
  | case4 escaped cs hquote ih =>
    rw [readString_escape hquote, Option.map_map]
    simp only [scanString, if_neg hquote, ih, Option.map_map]
    refine congrArg (Option.map · _) (funext fun r => ?_)
    simp only [Function.comp, List.take_succ_cons, byteLength, Prod.mk.injEq, true_and,
      show Char.utf8Size '\\' = 1 from rfl]
    omega
  | case5 c cs hend hescape hquote ih =>
    have hc : c ≠ '\\' := by
      cases cs with
      | nil => exact (hend · rfl)
      | cons d cs => exact (hescape d cs · rfl)
    rw [readString_plain hquote hc, Option.map_map, scanString_plain hquote hc, ih, Option.map_map]
    refine congrArg (Option.map · _) (funext fun r => ?_)
    simp only [Function.comp, List.take_succ_cons, byteLength, Nat.add_assoc]

/-- A reading of the character `c` and a number of characters of `cs` after it, with the index at
    which it ends for this number. -/
def placed (start : Nat) (c : Char) (cs : List Char) :
    Except Error (Token × Nat) → Except Error (Token × Nat) :=
  Except.map fun (token, count) => (token, start + byteLength (c :: cs.take count))

theorem placed_ok (start : Nat) (c : Char) (cs : List Char) (token : Token) (count : Nat) :
    placed start c cs (.ok (token, count)) =
      .ok (token, start + byteLength (c :: cs.take count)) := rfl

/-- A text in quotes is read in place as it is read from the character list. -/
theorem string_eq {quote : Char} (hquote : quote.toNat < 128) (h : Leaves source start (quote :: cs)) :
    string source quote start =
      some (placed start quote cs (match readString quote cs with
        | some (value, count) => .ok (.str (String.ofList value), count)
        | none => .error (.illFormed start .unterminatedString))) := by
  have hsize : quote.utf8Size = 1 := Char.utf8Size_eq_one_iff.2 (Nat.le_of_lt_succ hquote)
  rw [string, (h.tail hquote).slice?_end, Option.map_some, scanString_eq hsize]
  cases readString quote cs with
  | none => rfl
  | some r =>
    refine congrArg (fun stop => some (Except.ok (Token.str (String.ofList r.1), stop))) ?_
    simp only [byteLength, hsize]
    omega

/-! ## Names -/

/-- The dots of a metavariable are found in place; there are three of them or none. -/
theorem afterDots_eq (h : Leaves source index cs) {dots : Nat}
    (hdots : dots = if ['.', '.', '.'].isPrefixOf cs then 3 else 0) :
    afterDots source index = some (index + dots) ∧ Leaves source (index + dots) (cs.drop dots) := by
  rw [afterDots, h.slice?_end, Option.map_some]
  by_cases hprefix : ['.', '.', '.'].isPrefixOf cs = true
  · obtain rfl : dots = 3 := hdots.trans (if_pos hprefix)
    obtain ⟨rest, rfl⟩ := List.isPrefixOf_iff_prefix.1 hprefix
    rw [if_pos hprefix]
    exact ⟨rfl, ((h.tail (by decide)).tail (by decide)).tail (by decide)⟩
  · obtain rfl : dots = 0 := hdots.trans (if_neg hprefix)
    rw [if_neg hprefix]
    exact ⟨rfl, h⟩

/-- A metavariable is read in place as it is read from the character list. -/
theorem metavariable_eq (h : Leaves source start ('$' :: cs)) :
    metavariable source start = some (placed start '$' cs (readMetavariable start cs)) := by
  unfold metavariable readMetavariable
  extract_lets dots name
  obtain ⟨hdots, hname⟩ := afterDots_eq (h.tail (by decide)) (show dots = _ from rfl)
  obtain ⟨hskip, hend⟩ : skipWhile source isNameChar (start + 1 + dots) =
      start + 1 + dots + name.length ∧
        Leaves source (start + 1 + dots + name.length) ((cs.drop dots).drop name.length) :=
    hname.skipWhile_eq isAscii_isNameChar
  rw [hdots, Option.bind_some, hskip]
  cases hempty : name.isEmpty with
  | true => exact if_pos (by rw [List.isEmpty_iff.1 hempty]; rfl)
  | false =>
    have hpos : 0 < name.length := List.length_pos_iff.2 (by simpa using hempty)
    rw [List.drop_drop] at hend
    rw [← List.take_append_drop (dots + name.length) cs, ← List.cons_append] at h
    rw [if_neg (by omega), if_neg (by decide), h.slice?_eq hend, h.stop_eq hend]
    rfl

/-- A word is read in place as it is read from the character list. -/
theorem word_eq {c : Char} (hc : isNameChar c = true) (h : Leaves source start (c :: cs)) :
    word source start = some (placed start c cs
      (.ok (wordToken (c :: cs.takeWhile isNameChar), (cs.takeWhile isNameChar).length))) := by
  obtain ⟨hskip, hend⟩ := h.skipWhile_eq isAscii_isNameChar
  rw [List.takeWhile_cons_of_pos hc] at hskip hend
  have htake : cs.take (cs.takeWhile isNameChar).length = cs.takeWhile isNameChar :=
    (List.prefix_iff_eq_take.1 (List.takeWhile_prefix _)).symm
  rw [← List.take_append_drop (c :: cs.takeWhile isNameChar).length (c :: cs), List.length_cons,
    List.take_succ_cons, htake] at h
  rw [word, hskip, h.slice?_eq hend, h.stop_eq hend, placed_ok, htake]
  rfl

/-! ## Symbols -/

theorem ascii_of_symbol? {token : Token} (h : symbol? c = some token) : c.toNat < 128 := by
  unfold symbol? at h
  split at h <;> first | decide | cases h

theorem ascii_of_doubleSymbol? {d : Char} {token : Token} (h : doubleSymbol? c d = some token) :
    c.toNat < 128 ∧ d.toNat < 128 := by
  unfold doubleSymbol? at h
  split at h <;> first | decide | cases h

/-- What looks for ASCII characters only finds the same in the first byte of a character. -/
theorem find_lead {α : Type} {f : Char → Option α} (hf : ∀ c a, f c = some a → c.toNat < 128)
    (c : Char) : f (lead c) = f c := by
  by_cases hc : c.toNat < 128
  · rw [lead_eq hc]
  · have hnone : f c = none := Option.eq_none_iff_forall_ne_some.2 fun a ha => hc (hf c a ha)
    rw [hnone]
    exact Option.eq_none_iff_forall_ne_some.2 fun a ha =>
      Nat.not_lt_of_le (le_lead (Nat.le_of_not_lt hc)) (hf _ a ha)

/-- A symbol is read in place as it is read from the character list. -/
theorem symbol_eq (h : Leaves source start (c :: cs)) :
    symbol source start = some (placed start c cs (readSymbol start c cs)) := by
  have hfirst : byteAt? source start = some (lead c) := h.byteAt?_eq
  have hsingle : symbol? (lead c) = symbol? c := find_lead (fun _ _ => ascii_of_symbol?) c
  have hdouble : (byteAt? source (start + 1)).bind (doubleSymbol? (lead c)) =
      cs.head?.bind (doubleSymbol? c) := by
    by_cases hc : c.toNat < 128
    · rw [lead_eq hc, (h.tail hc).byteAt?_eq, Option.bind_map]
      refine congrArg _ (funext fun d => ?_)
      exact find_lead (fun _ _ hd => (ascii_of_doubleSymbol? hd).2) d
    · -- the byte after it may be one of the same character, but no symbol begins with this one
      have hnone (b : Char) (hb : ¬ b.toNat < 128) (second : Option Char) :
          second.bind (doubleSymbol? b) = none := by
        refine Option.eq_none_iff_forall_ne_some.2 fun token htoken => hb ?_
        obtain ⟨d, -, hd⟩ := Option.bind_eq_some_iff.1 htoken
        exact (ascii_of_doubleSymbol? hd).1
      rw [hnone c hc, hnone (lead c) (Nat.not_lt_of_le (le_lead (Nat.le_of_not_lt hc)))]
  rw [symbol, hfirst, Option.bind_some, Option.bind_some, hdouble, hsingle, readSymbol]
  cases hd : cs.head?.bind (doubleSymbol? c) with
  | some token =>
    obtain ⟨d, hhead, hd⟩ := Option.bind_eq_some_iff.1 hd
    obtain ⟨rest, rfl⟩ := List.head?_eq_some_iff.1 hhead
    obtain ⟨hc, hd⟩ := ascii_of_doubleSymbol? hd
    exact congrArg (fun stop => some (Except.ok (token, stop)))
      ((show Leaves source start ([c, d] ++ rest) from h).stop_eq ((h.tail hc).tail hd))
  | none =>
    cases hsymbol : symbol? c with
    | some token =>
      exact congrArg (fun stop => some (Except.ok (token, stop)))
        ((show Leaves source start ([c] ++ cs) from h).stop_eq (h.tail (ascii_of_symbol? hsymbol)))
    | none =>
      simp only
      rw [h.slice?_end]
      rfl

/-- **The token that is read in place is the one that is read from the characters.** -/
theorem token_eq (h : Leaves source start (c :: cs)) :
    token source (lead c) start = some (placed start c cs (readToken start c cs)) := by
  have hquote : (lead c = '"' ∨ lead c = '\'') ↔ (c = '"' ∨ c = '\'') := by
    rw [lead_eq_iff (by decide), lead_eq_iff (by decide)]
  simp only [token, readToken, isAscii_isDigit.lead, isAscii_isAlpha.lead,
    lead_eq_iff (d := '$') (by decide), lead_eq_iff (d := '_') (by decide), ← Bool.decide_or, hquote,
    decide_eq_true_eq]
  split
  · next hdigit =>
    rw [number_eq h]
    cases hread : readNumber start (c :: cs) with
    | error e => rfl
    | ok read =>
      obtain ⟨t, count⟩ := read
      have hpos : 0 < count := by
        rw [readNumber_eq_ok hread, numberLength,
          List.takeWhile_cons_of_pos (by simp [isDigitOrMark, hdigit])]
        simp only [List.length_cons]
        omega
      obtain ⟨count, rfl⟩ := Nat.exists_eq_succ_of_ne_zero (Nat.ne_of_gt hpos)
      rfl
  · split
    · next hc =>
      have hascii : c.toNat < 128 := by rcases hc with rfl | rfl <;> decide
      rw [lead_eq hascii]
      refine (string_eq hascii h).trans ?_
      cases readString c cs <;> rfl
    · split
      · next hc =>
        subst hc
        exact metavariable_eq h
      · split
        · next hc =>
          refine word_eq ?_ h
          rcases Bool.or_eq_true_iff.1 hc with hc | hc
          · simp [isNameChar, Char.isAlphanum, hc]
          · simp [isNameChar, of_decide_eq_true hc]
        · exact symbol_eq h

/-! ## The whole source -/

/-- At the end of the source there are no more tokens. -/
theorem run_end {turns : Nat} (h : byteAt? source index = none) :
    run source turns index = some (.ok []) := by
  unfold run
  rw [h]

/-- One turn skips a blank or reads one token. -/
theorem run_step {turns : Nat} (h : byteAt? source index = some c) :
    run source (turns + 1) index =
      if Text.isPlainBlank c then run source turns (index + 1)
      else
        match token source c index with
        | none => none
        | some (.error e) => some (.error e)
        | some (.ok (token, stop)) =>
          (run source turns stop).map (Except.map ((index, stop, token) :: ·)) := by
  conv_lhs => unfold run
  rw [h]

/-- A lexeme with the indices at which it begins and ends. -/
def spanned (l : Lexeme) : Nat × Nat × Token := (l.offset, l.offset + byteLength l.text, l.token)

/-- Wherever it begins, the reader in place reads what is left of the source, with no more turns than
    there are characters left. -/
theorem run_eq {turns : Nat} (h : Leaves source index cs) (hturns : cs.length ≤ turns) :
    run source turns index = some ((lexemesFrom 0 index cs).map (List.map spanned)) := by
  induction index, cs using layout_induction generalizing turns with
  | done index => exact run_end h.byteAt?_eq
  | blank index c cs hc ih =>
    obtain ⟨turns, rfl⟩ := Nat.exists_eq_succ_of_ne_zero (Nat.ne_zero_of_lt hturns)
    have hlead : Text.isPlainBlank (lead c) = true := (isAscii_isPlainBlank.lead c).trans hc
    have hsize : c.utf8Size = 1 :=
      Char.utf8Size_eq_one_iff.2 (Nat.le_of_lt_succ (isAscii_isPlainBlank c hc))
    have hrest := h.tail (isAscii_isPlainBlank c hc)
    rw [lexemesFrom_blank hc, run_step h.byteAt?_eq, if_pos hlead]
    rw [hsize] at ih ⊢
    exact ih hrest (Nat.le_of_succ_le_succ hturns)
  | lexeme index text t rest hread ih =>
    have hlexemes := lexemesFrom_of_isRead hread
    obtain ⟨c, cs, htext, hc, hread⟩ := hread
    obtain rfl : text = c :: cs := htext
    obtain ⟨turns, rfl⟩ := Nat.exists_eq_succ_of_ne_zero (Nat.ne_zero_of_lt hturns)
    have hlead : Text.isPlainBlank (lead c) = false := (isAscii_isPlainBlank.lead c).trans hc
    have hcons : Leaves source index (c :: (cs ++ rest)) := h
    have htoken : token source (lead c) index =
        some (.ok (t, index + byteLength (c :: cs))) := by
      rw [token_eq hcons, show readToken index c (cs ++ rest) = _ from hread, placed_ok, List.take_left]
    -- a lexeme takes one turn, and has at least one character
    have hleft : rest.length ≤ turns := by
      simp only [List.cons_append, List.length_cons, List.length_append] at hturns
      omega
    have hrest := ih h.append hleft
    rw [hlexemes, run_step h.byteAt?_eq, if_neg (by simp [hlead]), htoken]
    simp only [hrest, Option.map_some]
    cases lexemesFrom 0 (index + byteLength (c :: cs)) rest <;> rfl
  | fault index c cs problem hc hread =>
    obtain ⟨turns, rfl⟩ := Nat.exists_eq_succ_of_ne_zero (Nat.ne_zero_of_lt hturns)
    have hlead : Text.isPlainBlank (lead c) = false := (isAscii_isPlainBlank.lead c).trans hc
    rw [lexemesFrom_of_readToken_eq_error hc hread, run_step h.byteAt?_eq, if_neg (by simp [hlead]),
      token_eq h, hread]
    rfl

end

end InPlace

end RuleSieve.Predicate
