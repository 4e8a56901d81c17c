/-
  Texts that write an integer.

  An integer is written by an optional sign, an optional mark of the base and digits with single
  underscores between them (`Writes`).  Such a text is always read, and in every base but ten nothing
  else is.  In base ten a run of digits that has no room in 64 bits is read again as a float, and with
  it whatever else a float may have behind its digits: an exponent (`Overlong`).
-/
import Mathlib.Data.List.Basic
import Mathlib.Data.List.TakeWhile
import RuleSieve.Proofs.DigitRun
import RuleSieve.Proofs.Trimming

namespace RuleSieve.NumberText

open Decimal (isDigit cutSign)

variable {base : Nat} {cs ds : List Char}

/-! ## Large numbers -/

/-- The mark of an exponent, an optional sign and digits. -/
def IsExponent (cs : List Char) : Prop :=
  ∃ mark sign power, cs = mark :: (sign ++ power) ∧ (mark = 'e' ∨ mark = 'E') ∧ IsSign sign ∧
    power ≠ [] ∧ ∀ c ∈ power, isDigit c = true

theorem exponent_head {power : List Char} (h : power = [] ∨ IsExponent power) :
    ∀ c ∈ power.head?, isDigit c = false := by
  rcases h with rfl | ⟨mark, sign, digits, rfl, rfl | rfl, -⟩ <;> simp [isDigit]

theorem readDecimal?_isSome_iff : (Decimal.readInt? cs).isSome = true ↔
    (cutSign cs).2 ≠ [] ∧ ∀ c ∈ (cutSign cs).2, isDigit c = true := by
  unfold Decimal.readInt?
  dsimp only
  split
  · next h => exact iff_of_false Bool.false_ne_true (by simpa [or_iff_not_imp_left] using h)
  · next h => exact iff_of_true rfl (by simpa using h)

theorem readExponent?_isSome_iff :
    (Binary64.readExponent? cs).isSome = true ↔ cs = [] ∨ IsExponent cs := by
  cases cs with
  | nil => exact iff_of_true rfl (.inl rfl)
  | cons mark rest =>
    rw [Binary64.readExponent?, or_iff_right (List.cons_ne_nil mark rest)]
    constructor
    · intro h
      split at h
      · next hmark =>
        obtain ⟨hne, hdigits⟩ := readDecimal?_isSome_iff.1 h
        obtain ⟨sign, hsign, heq, -⟩ := exists_sign rest
        exact ⟨mark, sign, _, congrArg _ heq, by simpa using hmark, hsign, hne, hdigits⟩
      · cases h
    · rintro ⟨mark, sign, power, heq, hmark, hsign, hne, hdigits⟩
      obtain ⟨rfl, rfl⟩ := List.cons.inj heq
      obtain ⟨c, power, rfl⟩ := List.exists_cons_of_ne_nil hne
      obtain ⟨hplus, hminus⟩ := (isDigit_ten.2 (hdigits c List.mem_cons_self)).ne_sign
      rw [if_pos (by simpa using hmark), readDecimal?_isSome_iff,
        cutSign_append hsign hplus hminus]
      exact ⟨hne, hdigits⟩

/-- A text that begins with a digit is no word. -/
theorem readFloat_eq_readDigits {c : Char} (hc : isDigit c = true) (cs : List Char) :
    Binary64.read? (c :: cs) = Binary64.readDigits? false (c :: cs) := by
  obtain ⟨hplus, hminus⟩ := (isDigit_ten.2 hc).ne_sign
  have hsign : cutSign (c :: cs) = (false, c :: cs) := cutSign_append (.inl rfl) hplus hminus cs
  obtain ⟨hlow, hhigh⟩ := isDigit_bounds hc
  have hlower : Binary64.lowerLetter c = c := by
    refine if_neg fun h => ?_
    have hletter : 65 ≤ c.toNat := of_decide_eq_true (Bool.and_eq_true_iff.1 h).1
    omega
  have hword (letter : Char) (hletter : 57 < letter.toNat) (word : List Char) :
      (c :: cs).map Binary64.lowerLetter ≠ letter :: word := by
    rw [List.map_cons, hlower]
    intro h
    obtain rfl := (List.cons.inj h).1
    omega
  have hinfinite := hword 'i' (by decide)
  have hnan := hword 'n' (by decide)
  unfold Binary64.read?
  rw [hsign]
  dsimp only
  simp only [hinfinite, hnan, decide_false, Bool.or_self, Bool.false_eq_true, if_false]

/-- A text that begins with a digit and has no point writes a float just if nothing stands behind its
    digits, or an exponent does. -/
theorem readFloat_isSome_iff {c : Char} (hc : isDigit c = true) (hpoint : '.' ∉ c :: cs) :
    (Binary64.read? (c :: cs)).isSome = true ↔
      (c :: cs).dropWhile isDigit = [] ∨ IsExponent ((c :: cs).dropWhile isDigit) := by
  have hrest (rest : List Char) : (c :: cs).dropWhile isDigit ≠ '.' :: rest := fun h =>
    hpoint ((List.dropWhile_sublist isDigit).subset (h ▸ List.mem_cons_self))
  have hwhole : ((c :: cs).takeWhile isDigit).isEmpty = false := by
    rw [List.takeWhile_cons, if_pos hc]
    rfl
  rw [← readExponent?_isSome_iff, readFloat_eq_readDigits hc]
  unfold Binary64.readDigits?
  dsimp only
  split
  · next rest heq => exact absurd heq (hrest rest)
  · rw [hwhole, Bool.false_and, if_neg Bool.false_ne_true, Option.isSome_map]

/-- Digits are added up just if they are digits. -/
theorem foldlM_isSome_iff {step : Float → Char → Option Float}
    (hstep : ∀ x c, (step x c).isSome = true ↔ IsDigit base c) (x : Float) :
    (cs.foldlM step x).isSome = true ↔ ∀ c ∈ cs, IsDigit base c := by
  induction cs generalizing x with
  | nil => exact iff_of_true rfl fun _ h => absurd h List.not_mem_nil
  | cons c cs ih =>
    rw [List.foldlM_cons, List.forall_mem_cons, ← hstep x c]
    cases step x c with
    | none => exact iff_of_false Bool.false_ne_true fun h => Bool.false_ne_true h.1
    | some y => exact (ih y).trans (iff_and_self.2 fun _ => rfl)

/-! ## Integers -/

/-- The text writes an integer in the base. -/
def Writes (base : Nat) (cs : List Char) : Prop :=
  ∃ sign mark run, cs = sign ++ (mark ++ run) ∧ IsSign sign ∧ IsMark base mark ∧
    Spaced (IsDigit base) run

/-- The greatest magnitude that has room in 64 bits, given whether the sign is negative. -/
def limit (negative : Bool) : Nat := if negative then Word.half else Word.half - 1

/-- Digits of more than 64 bits with an exponent behind them. -/
def HasPower (negative : Bool) (ds : List Char) : Prop :=
  ∃ whole power, ds = whole ++ power ∧ (∀ c ∈ whole, isDigit c = true) ∧
    limit negative < Decimal.value whole ∧ IsExponent power

/-- Behind an optional sign the text has more digits than there is room for, and then an exponent;
    underscores may stand between any two of these characters. -/
def Overlong (cs : List Char) : Prop :=
  ∃ sign body, cs = sign ++ body ∧ IsSign sign ∧ WellMarked body ∧
    HasPower (sign = ['-']) (body.filter (· != '_'))

theorem HasPower.head {negative : Bool} (h : HasPower negative ds) :
    ∃ c rest, ds = c :: rest ∧ isDigit c = true := by
  obtain ⟨whole, power, rfl, hdigits, hlimit, -⟩ := h
  cases whole with
  | nil => exact absurd hlimit (Nat.not_lt_zero _)
  | cons c whole => exact ⟨c, _, rfl, hdigits c List.mem_cons_self⟩

/-- An exponent is not made of digits. -/
theorem HasPower.not_digits {negative : Bool} (h : HasPower negative ds) :
    ¬ ∀ c ∈ ds, IsDigit 10 c := by
  obtain ⟨whole, _, rfl, -, -, mark, sign, power, rfl, hmark, -⟩ := h
  intro hall
  have hdigit := hall mark (List.mem_append_right whole List.mem_cons_self)
  rcases hmark with rfl | rfl
  · exact absurd hdigit (by decide)
  · exact absurd hdigit (by decide)

/-- The digits that are left of a number are read to the end, or as a float. -/
def Accepted (base : Nat) (negative : Bool) (ds : List Char) : Prop :=
  ds ≠ [] ∧ (∀ c ∈ ds, IsDigit base c) ∨ base = 10 ∧ HasPower negative ds

theorem Accepted.head {negative : Bool} (h : Accepted base negative ds) :
    ∃ c rest, ds = c :: rest ∧ IsDigit base c := by
  rcases h with ⟨hne, hdigits⟩ | ⟨rfl, hpower⟩
  · obtain ⟨c, rest, rfl⟩ := List.exists_cons_of_ne_nil hne
    exact ⟨c, rest, rfl, hdigits c List.mem_cons_self⟩
  · obtain ⟨c, rest, rfl, hc⟩ := hpower.head
    exact ⟨c, rest, rfl, isDigit_ten.2 hc⟩

/-- In base ten a run that is too large is read as a float just if it has digits only, or an exponent
    behind too many of them; in other bases it must have digits only. -/
theorem wideMagnitude?_isSome_iff {negative : Bool} (hpoint : '.' ∉ ds)
    (hlarge : readRun base (limit negative) 0 ds = .tooLarge) :
    (wideMagnitude? base ds).isSome = true ↔
      (∀ c ∈ ds, IsDigit base c) ∨ base = 10 ∧ HasPower negative ds := by
  rw [wideMagnitude?]
  split
  · next hten =>
    subst hten
    rw [readRun_eq_tooLarge_iff (Nat.zero_le _)] at hlarge
    have hwhole : ∀ c ∈ ds.takeWhile isDigit, isDigit c = true := fun c => List.mem_takeWhile_imp
    cases ds with
    | nil => exact absurd hlarge (Nat.not_lt_zero _)
    | cons c cs =>
      have hc : isDigit c = true := by
        by_contra hc
        rw [List.takeWhile_cons, if_neg hc] at hlarge
        exact Nat.not_lt_zero _ hlarge
      rw [readFloat_isSome_iff hc hpoint, List.dropWhile_eq_nil_iff]
      simp only [isDigit_ten]
      refine or_congr_right ⟨fun h => ⟨trivial, _, _, ?_, hwhole, hlarge, h⟩, ?_⟩
      · exact (List.takeWhile_append_dropWhile ..).symm
      · rintro ⟨-, whole, power, heq, hdigits, -, hpower⟩
        rwa [heq, (Text.span_append hdigits (exponent_head (.inr hpower))).2]
  · next hten =>
    refine Iff.trans (b := ∀ c ∈ ds, IsDigit base c) (foldlM_isSome_iff (fun x c => ?_) _)
      ⟨.inl, fun h => h.resolve_right fun h => hten h.1⟩
    rw [Option.isSome_map, IsDigit]
    cases digitIn? base c <;> rfl

/-- Too many digits are too large, whatever stands behind them. -/
theorem HasPower.readRun {negative : Bool} (h : HasPower negative ds) :
    readRun 10 (limit negative) 0 ds = .tooLarge := by
  obtain ⟨whole, power, rfl, hdigits, hlimit, hpower⟩ := h
  have hspan := Text.span_append hdigits (exponent_head (.inr hpower))
  rw [readRun_eq_tooLarge_iff (Nat.zero_le _), hspan.1]
  exact hlimit

/-- Digits are accepted if they are read to the end, or as a float where they are too large. -/
theorem accepted_iff {negative : Bool} (hne : ds ≠ []) (hpoint : '.' ∉ ds) :
    Accepted base negative ds ↔
      (∃ n, readRun base (limit negative) 0 ds = .value n) ∨
        readRun base (limit negative) 0 ds = .tooLarge ∧ (wideMagnitude? base ds).isSome = true := by
  rw [Accepted, and_iff_right hne]
  rcases @readRun_cases base (limit negative) 0 ds with h | ⟨⟨n, h⟩, hdigits⟩ | ⟨h, hdigits⟩
  · simp [h, wideMagnitude?_isSome_iff hpoint h]
  · exact iff_of_true (.inl hdigits) (.inl ⟨n, h⟩)
  · refine iff_of_false ?_ (by simp [h])
    rintro (hall | ⟨rfl, hpower⟩)
    · exact hdigits hall
    · cases h.symm.trans hpower.readRun

/-- A text in a base that there is writes an integer just if what is left of it without sign, mark and
    underscores is accepted. -/
theorem readInt?_isSome_iff (hbase : 2 ≤ base ∧ base ≤ 36) {text : List Char} (hpoint : '.' ∉ text) :
    (readInt? base text).isSome = true ↔
      ∃ ds, dropMarks? (dropBaseMark base (cutSign (Text.trim text)).2) = some ds ∧
        Accepted base (cutSign (Text.trim text)).1 ds := by
  have hin : ¬ (base < 2 || 36 < base) = true := by
    simp only [Bool.or_eq_true, decide_eq_true_eq]
    omega
  obtain ⟨sign, -, hcut, -⟩ := exists_sign (Text.trim text)
  obtain ⟨mark, -, hdropped⟩ := exists_mark base (cutSign (Text.trim text)).2
  unfold readInt?
  rw [if_neg hin]
  dsimp only
  generalize (cutSign (Text.trim text)).1 = negative
  cases hdrop : dropMarks? (dropBaseMark base (cutSign (Text.trim text)).2) with
  | none => exact iff_of_false Bool.false_ne_true fun ⟨ds, h, _⟩ => by cases h
  | some ds =>
    have hmem : '.' ∉ ds := by
      intro h
      rw [← (dropMarks?_eq_some_iff.1 hdrop).2] at h
      have hbody : '.' ∈ (cutSign (Text.trim text)).2 :=
        hdropped ▸ List.mem_append_right mark (List.mem_filter.1 h).1
      have htrim : '.' ∈ Text.trim text := hcut ▸ List.mem_append_right sign hbody
      exact hpoint (Text.mem_of_mem_trimBy htrim)
    have hrefused (h : ∀ c rest, ds = c :: rest → c = '+' ∨ c = '-') :
        ¬ Accepted base negative ds := by
      intro haccepted
      obtain ⟨c, rest, heq, hc⟩ := haccepted.head
      rcases h c rest heq with rfl | rfl
      · exact hc.ne_sign.1 rfl
      · exact hc.ne_sign.2 rfl
    simp only [Option.some.injEq, exists_eq_left', Option.bind_eq_bind, Option.bind_some]
    split
    · exact iff_of_false Bool.false_ne_true (hrefused fun _ _ h => by cases h)
    · exact iff_of_false Bool.false_ne_true (hrefused fun _ _ h => .inl (List.cons.inj h).1.symm)
    · exact iff_of_false Bool.false_ne_true (hrefused fun _ _ h => .inr (List.cons.inj h).1.symm)
    · next hne _ _ =>
      rw [accepted_iff hne hmem, limit]
      cases readRun base (if negative then Word.half else Word.half - 1) 0 ds with
      | value n => exact iff_of_true rfl (.inl ⟨n, rfl⟩)
      | tooLarge => cases wideMagnitude? base ds <;> simp
      | invalid => simp

/-! ## Texts -/

/-- A text writes an integer just if digits are left of it. -/
theorem writes_iff : Writes base cs ↔
    ∃ ds, dropMarks? (dropBaseMark base (cutSign cs).2) = some ds ∧ ds ≠ [] ∧
      ∀ c ∈ ds, IsDigit base c := by
  rw [← spaced_iff (not_isDigit_underscore base)]
  constructor
  · rintro ⟨sign, mark, run, rfl, hsign, hmark, hrun⟩
    rwa [cutSign_parts hsign hmark hrun, dropBaseMark_append hmark hrun]
  · intro hrun
    obtain ⟨sign, hsign, hcut, -⟩ := exists_sign cs
    obtain ⟨mark, hmark, hdropped⟩ := exists_mark base (cutSign cs).2
    exact ⟨sign, mark, _, hcut.trans (congrArg _ hdropped), hsign, hmark, hrun⟩

/-- A text is overlong just if digits and an exponent are left of it. -/
theorem overlong_iff : Overlong cs ↔
    ∃ ds, dropMarks? (dropBaseMark 10 (cutSign cs).2) = some ds ∧ HasPower (cutSign cs).1 ds := by
  simp only [show dropBaseMark 10 (cutSign cs).2 = (cutSign cs).2 from rfl, dropMarks?_eq_some_iff]
  constructor
  · rintro ⟨sign, body, rfl, hsign, hmarked, hpower⟩
    obtain ⟨c, rest, rfl, hplus, hminus⟩ :
        ∃ c rest, body = c :: rest ∧ c ≠ '+' ∧ c ≠ '-' := by
      obtain ⟨c, rest, hfilter, hc⟩ := hpower.head
      cases body with
      | nil => cases hfilter
      | cons d body =>
        have hd : d ≠ '_' := by simpa using hmarked.head
        rw [List.filter_cons_of_pos (by simpa using hd)] at hfilter
        obtain rfl := (List.cons.inj hfilter).1
        exact ⟨d, body, rfl, (isDigit_ten.2 hc).ne_sign⟩
    rw [cutSign_append hsign hplus hminus]
    exact ⟨_, ⟨hmarked, rfl⟩, hpower⟩
  · rintro ⟨_, ⟨hmarked, rfl⟩, hpower⟩
    obtain ⟨sign, hsign, hcut, hnegative⟩ := exists_sign cs
    exact ⟨sign, _, hcut, hsign, hmarked, hnegative ▸ hpower⟩

/-- No overlong text writes an integer. -/
theorem Overlong.not_writes (h : Overlong cs) : ¬ Writes 10 cs := by
  intro hwrites
  obtain ⟨ds, hds, hpower⟩ := overlong_iff.1 h
  obtain ⟨ds', hds', -, hdigits⟩ := writes_iff.1 hwrites
  obtain rfl := Option.some.inj (hds'.symm.trans hds)
  exact hpower.not_digits hdigits

/-- The text in which a number is looked for: without quotes around it if they are to be left out. -/
def unquoted (text : String) (strip : Bool) : List Char :=
  if strip then Text.trimBy isQuote text.toList else text.toList

/-- A number is read just if the base is one that there is and the text writes an integer in it. -/
def ReadsIntegers (text : String) (strip : Bool) (base : Option Nat) : Prop :=
  (read? text strip base).isSome = true ↔
    2 ≤ base.getD 10 ∧ base.getD 10 ≤ 36 ∧ Writes (base.getD 10) (Text.trim (unquoted text strip))

theorem read?_isSome_iff {text : String} {strip : Bool} (base : Option Nat)
    (hpoint : '.' ∉ unquoted text strip) :
    (read? text strip base).isSome = true ↔
      2 ≤ base.getD 10 ∧ base.getD 10 ≤ 36 ∧
        (Writes (base.getD 10) (Text.trim (unquoted text strip)) ∨
          base.getD 10 = 10 ∧ Overlong (Text.trim (unquoted text strip))) := by
  have hread : read? text strip base = readInt? (base.getD 10) (unquoted text strip) :=
    if_neg (by simpa [unquoted] using hpoint)
  rw [hread]
  generalize base.getD 10 = base
  by_cases hbase : 2 ≤ base ∧ base ≤ 36
  · rw [readInt?_isSome_iff hbase hpoint, and_iff_right hbase.1, and_iff_right hbase.2, writes_iff]
    simp only [Accepted, and_or_left, exists_or]
    refine or_congr_right ?_
    rw [overlong_iff]
    constructor
    · rintro ⟨ds, hds, rfl, hpower⟩
      exact ⟨rfl, ds, hds, hpower⟩
    · rintro ⟨rfl, ds, hds, hpower⟩
      exact ⟨ds, hds, rfl, hpower⟩
  · have hout : (base < 2 || 36 < base) = true := by
      simp only [Bool.or_eq_true, decide_eq_true_eq]
      omega
    rw [readInt?, if_pos hout]
    exact iff_of_false Bool.false_ne_true fun h => hbase ⟨h.1, h.2.1⟩

/-- A text without a point is read as a number just if it writes an integer in the base, or is overlong
    and the base is ten.  So integers and nothing else are read, but for the overlong texts. -/
theorem readsIntegers_iff (text : String) (strip : Bool) (base : Option Nat)
    (hpoint : '.' ∉ unquoted text strip) :
    ((read? text strip base).isSome = true ↔
      2 ≤ base.getD 10 ∧ base.getD 10 ≤ 36 ∧
        (Writes (base.getD 10) (Text.trim (unquoted text strip)) ∨
          base.getD 10 = 10 ∧ Overlong (Text.trim (unquoted text strip)))) ∧
    (ReadsIntegers text strip base ↔
      ¬ (base.getD 10 = 10 ∧ Overlong (Text.trim (unquoted text strip)))) := by
  have hread := read?_isSome_iff base hpoint
  refine ⟨hread, fun hreads hoverlong => ?_, fun hshort => ?_⟩
  · obtain ⟨hten, hlong⟩ := hoverlong
    obtain ⟨-, -, hwrites⟩ := hreads.1 (hread.2 ⟨by omega, by omega, .inr ⟨hten, hlong⟩⟩)
    exact hlong.not_writes (hten ▸ hwrites)
  · rw [ReadsIntegers, hread, or_iff_left hshort]

/-- Quotes, blanks, a sign, a mark and underscores around and between hexadecimal digits. -/
theorem readsIntegers_iff_hexadecimal :
    (read? "'-0x_7F_ff '" true (some 16)).isSome = true ∧
      ReadsIntegers "'-0x_7F_ff '" true (some 16) := by
  have hpoint : '.' ∉ unquoted "'-0x_7F_ff '" true := by decide
  have hwrites : Writes 16 (Text.trim (unquoted "'-0x_7F_ff '" true)) := by
    have hrun : Spaced (IsDigit 16) ['7', 'F', '_', 'f', 'f'] :=
      .cons (by decide) (.mark (by decide) (.cons (by decide) (.one (by decide))))
    exact ⟨['-'], ['0', 'x', '_'], _, by decide, .inr (.inr rfl),
      .inr ⟨['0', 'x'], by decide, .inr rfl⟩, hrun⟩
  obtain ⟨hread, hreads⟩ := readsIntegers_iff "'-0x_7F_ff '" true (some 16) hpoint
  exact ⟨hread.2 ⟨by decide, by decide, .inl hwrites⟩, hreads.2 (by simp)⟩

/-- The exponent behind twenty digits is no digit, but the text is read. -/
theorem not_readsIntegers_overlong :
    '.' ∉ unquoted "99999999999999999999e5" false ∧
      (read? "99999999999999999999e5" false none).isSome = true ∧
      ¬ ReadsIntegers "99999999999999999999e5" false none := by
  have hpoint : '.' ∉ unquoted "99999999999999999999e5" false := by decide
  have hlong : Overlong (Text.trim (unquoted "99999999999999999999e5" false)) := by
    have hpower : IsExponent ['e', '5'] :=
      ⟨'e', [], ['5'], rfl, .inl rfl, .inl rfl, by decide, List.all_eq_true.1 rfl⟩
    refine ⟨[], "99999999999999999999e5".toList, by decide, .inl rfl,
      ⟨by decide, by decide, by decide⟩, "99999999999999999999".toList, ['e', '5'], by decide,
      List.all_eq_true.1 rfl, by decide, hpower⟩
  have hread := (read?_isSome_iff none hpoint).2 ⟨by decide, by decide, .inr ⟨rfl, hlong⟩⟩
  exact ⟨hpoint, hread, fun hreads => hlong.not_writes (hreads.1 hread).2.2⟩

end RuleSieve.NumberText
