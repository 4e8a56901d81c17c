/-
  Texts that write a float.

  A text with a point writes a float by an optional sign, digits on either side of the point and an
  optional exponent (`IsDecimal`).  Before it is read its underscores are dropped, and for these it only
  matters that none of them is at an end or beside another one.  So an underscore beside the point, a
  sign or the mark of an exponent is let through with those that stand between digits
  (`readsSeparated_iff`).
-/
import RuleSieve.Proofs.Enclosure

namespace RuleSieve.NumberText

open Decimal (isDigit cutSign)

variable {cs : List Char}

/-! ## Decimal numbers -/

/-- The text of a decimal number with a point. -/
def IsDecimal (cs : List Char) : Prop :=
  ∃ sign whole fraction power, cs = sign ++ (whole ++ '.' :: (fraction ++ power)) ∧ IsSign sign ∧
    (∀ c ∈ whole, isDigit c = true) ∧ (∀ c ∈ fraction, isDigit c = true) ∧
    (whole ≠ [] ∨ fraction ≠ []) ∧ (power = [] ∨ IsExponent power)

/-- The characters of a decimal number that are no digits. -/
def IsPunctuation (c : Char) : Prop := c = '.' ∨ c = '+' ∨ c = '-' ∨ c = 'e' ∨ c = 'E'

theorem IsPunctuation.not_isDigit {c : Char} (h : IsPunctuation c) : ¬ isDigit c = true := by
  rcases h with rfl | rfl | rfl | rfl | rfl <;> decide

theorem IsPunctuation.plain {c : Char} (h : IsPunctuation c) : Plain c := by
  rcases h with rfl | rfl | rfl | rfl | rfl <;> decide

theorem IsSign.isPunctuation {sign : List Char} (h : IsSign sign) :
    ∀ c ∈ sign, c = '+' ∨ c = '-' := by
  rcases h with rfl | rfl | rfl <;> simp

theorem IsExponent.cases {power : List Char} (h : IsExponent power) :
    ∀ c ∈ power, isDigit c = true ∨ IsPunctuation c ∧ c ≠ '.' := by
  obtain ⟨mark, sign, digits, rfl, hmark, hsign, -, hdigits⟩ := h
  refine List.forall_mem_cons.2 ⟨?_, List.forall_mem_append.2 ⟨fun c hc => ?_, fun c hc => ?_⟩⟩
  · rcases hmark with rfl | rfl <;> exact .inr ⟨by simp [IsPunctuation], by decide⟩
  · rcases hsign.isPunctuation c hc with rfl | rfl <;>
      exact .inr ⟨by simp [IsPunctuation], by decide⟩
  · exact .inl (hdigits c hc)

/-- A decimal number has digits and punctuation only. -/
theorem IsDecimal.cases (h : IsDecimal cs) : ∀ c ∈ cs, isDigit c = true ∨ IsPunctuation c := by
  obtain ⟨sign, whole, fraction, power, rfl, hsign, hwhole, hfraction, -, hpower⟩ := h
  intro c hc
  simp only [List.mem_append, List.mem_cons] at hc
  rcases hc with hc | hc | rfl | hc | hc
  · rcases hsign.isPunctuation c hc with rfl | rfl <;> exact .inr (by simp [IsPunctuation])
  · exact .inl (hwhole c hc)
  · exact .inr (.inl rfl)
  · exact .inl (hfraction c hc)
  · rcases hpower with rfl | hpower
    · exact absurd hc List.not_mem_nil
    · exact (hpower.cases c hc).imp_right And.left

/-- The text of an unsigned decimal number with a point. -/
theorem readDigits?_isSome_iff (negative : Bool) (hpoint : '.' ∈ cs) :
    (Binary64.readDigits? negative cs).isSome = true ↔
      ∃ whole fraction power, cs = whole ++ '.' :: (fraction ++ power) ∧
        (∀ c ∈ whole, isDigit c = true) ∧ (∀ c ∈ fraction, isDigit c = true) ∧
        (whole ≠ [] ∨ fraction ≠ []) ∧ (power = [] ∨ IsExponent power) := by
  have hsplit := List.takeWhile_append_dropWhile (p := isDigit) (l := cs)
  constructor
  · intro h
    unfold Binary64.readDigits? at h
    dsimp only at h
    split at h
    · next rest heq =>
      dsimp only at h
      split at h
      · cases h
      · next hsome =>
        rw [Option.isSome_map, readExponent?_isSome_iff] at h
        rw [heq] at hsplit
        refine ⟨cs.takeWhile isDigit, rest.takeWhile isDigit, rest.dropWhile isDigit, ?_,
          fun c => List.mem_takeWhile_imp, fun c => List.mem_takeWhile_imp, ?_, h⟩
        · rw [List.takeWhile_append_dropWhile]
          exact hsplit.symm
        · simpa [or_iff_not_imp_left] using hsome
    · -- without a point behind the digits there is none anywhere
      dsimp only at h
      split at h
      · cases h
      · rw [Option.isSome_map, readExponent?_isSome_iff] at h
        rw [← hsplit, List.mem_append] at hpoint
        rcases hpoint with hpoint | hpoint
        · exact absurd (List.mem_takeWhile_imp hpoint) (by decide)
        · rcases h with h | h
          · exact absurd (h ▸ hpoint) List.not_mem_nil
          · rcases h.cases _ hpoint with hdigit | ⟨-, hne⟩
            · exact absurd hdigit (by decide)
            · exact absurd rfl hne
  · rintro ⟨whole, fraction, power, rfl, hwhole, hfraction, hsome, hpower⟩
    have hstop : ∀ c ∈ ('.' :: (fraction ++ power)).head?, isDigit c = false := by simp [isDigit]
    obtain ⟨htake, hdrop⟩ := Text.span_append hwhole hstop
    obtain ⟨htake', hdrop'⟩ := Text.span_append hfraction (exponent_head hpower)
    have hnonempty : ¬ (whole.isEmpty && fraction.isEmpty) = true := by
      simpa [or_iff_not_imp_left] using hsome
    unfold Binary64.readDigits?
    rw [htake, hdrop]
    show (if whole.isEmpty && ((fraction ++ power).takeWhile isDigit).isEmpty then none
      else (Binary64.readExponent? ((fraction ++ power).dropWhile isDigit)).map _).isSome = true
    rw [htake', hdrop', if_neg hnonempty, Option.isSome_map, readExponent?_isSome_iff]
    exact hpower

/-- A text with a point is no word, so it writes a float just if it is a decimal number. -/
theorem read?_isSome_iff_isDecimal (hpoint : '.' ∈ cs) :
    (Binary64.read? cs).isSome = true ↔ IsDecimal cs := by
  obtain ⟨sign, hsign, hcut, -⟩ := exists_sign cs
  have hbody : '.' ∈ (cutSign cs).2 := by
    rw [hcut, List.mem_append] at hpoint
    refine hpoint.resolve_left fun hmem => ?_
    rcases hsign.isPunctuation _ hmem with h | h <;> exact absurd h (by decide)
  have hword (word : List Char) (hword : '.' ∉ word) :
      (cutSign cs).2.map Binary64.lowerLetter ≠ word := by
    rintro rfl
    exact hword (List.mem_map.2 ⟨'.', hbody, by decide⟩)
  have hread : Binary64.read? cs = Binary64.readDigits? (cutSign cs).1 (cutSign cs).2 := by
    unfold Binary64.read?
    dsimp only
    rw [if_neg (by simp [hword]), if_neg (hword _ (by decide))]
  rw [hread, readDigits?_isSome_iff _ hbody]
  constructor
  · rintro ⟨whole, fraction, power, heq, hparts⟩
    exact ⟨sign, whole, fraction, power, heq ▸ hcut, hsign, hparts⟩
  · rintro ⟨sign, whole, fraction, power, rfl, hsign, hwhole, hrest⟩
    have hhead : ∃ c rest, whole ++ '.' :: (fraction ++ power) = c :: rest ∧ c ≠ '+' ∧ c ≠ '-' := by
      cases whole with
      | nil => exact ⟨'.', _, rfl, by decide, by decide⟩
      | cons c whole => exact ⟨c, _, rfl, (isDigit_ten.2 (hwhole c List.mem_cons_self)).ne_sign⟩
    obtain ⟨c, rest, heq, hplus, hminus⟩ := hhead
    refine ⟨whole, fraction, power, ?_, hwhole, hrest⟩
    rw [heq, cutSign_append hsign hplus hminus]

/-! ## Underscores -/

/-- Every underscore stands directly between two digits. -/
def BetweenDigits (cs : List Char) : Prop :=
  ∀ front back, cs = front ++ '_' :: back →
    (∃ c ∈ front.getLast?, isDigit c = true) ∧ ∃ c ∈ back.head?, isDigit c = true

/-- An underscore stands beside the point, a sign or the mark of an exponent. -/
def Misplaced (cs : List Char) : Prop :=
  ∃ front c back, (cs = front ++ '_' :: c :: back ∨ cs = front ++ c :: '_' :: back) ∧ IsPunctuation c

theorem hasDoubleMark_append (front back : List Char) :
    hasDoubleMark (front ++ '_' :: '_' :: back) = true := by
  induction front with
  | nil => rfl
  | cons c front ih =>
    by_cases hc : c = '_'
    · subst hc
      cases front with
      | nil => rfl
      | cons d front =>
        by_cases hd : d = '_'
        · subst hd
          rfl
        · rw [List.cons_append, List.cons_append, hasDoubleMark, ← List.cons_append, ih]
          rintro rest - heq
          exact hd (List.cons.inj heq).1
    · rw [List.cons_append, hasDoubleMark_cons hc, ih]

/-- On either side of an underscore stands another character. -/
theorem WellMarked.neighbours {front back : List Char} (h : WellMarked (front ++ '_' :: back)) :
    ∃ front' c d back', front = front' ++ [c] ∧ back = d :: back' ∧ c ≠ '_' ∧ d ≠ '_' := by
  have hnotDouble {front back : List Char} (h : WellMarked (front ++ '_' :: '_' :: back)) : False := by
    have hsingle := h.single
    rw [hasDoubleMark_append] at hsingle
    cases hsingle
  rcases List.eq_nil_or_concat' front with rfl | ⟨front, c, rfl⟩
  · exact absurd rfl h.head
  cases back with
  | nil => exact absurd (by simp) h.last
  | cons d back =>
    refine ⟨front, c, d, back, rfl, rfl, ?_, ?_⟩
    · rintro rfl
      rw [List.append_assoc] at h
      exact hnotDouble h
    · rintro rfl
      exact hnotDouble h

/-- Of characters that are digits or punctuation, all underscores stand between digits just if none is
    misplaced. -/
theorem betweenDigits_iff (hmarked : WellMarked cs)
    (hcs : ∀ c ∈ cs, c ≠ '_' → isDigit c = true ∨ IsPunctuation c) :
    BetweenDigits cs ↔ ¬ Misplaced cs := by
  constructor
  · rintro hbetween ⟨front, c, back, heq | heq, hc⟩
    · obtain ⟨-, d, hd, hdigit⟩ := hbetween front (c :: back) heq
      obtain rfl : c = d := Option.some.inj hd
      exact hc.not_isDigit hdigit
    · obtain ⟨⟨d, hd, hdigit⟩, -⟩ := hbetween (front ++ [c]) back (by simpa using heq)
      obtain rfl : c = d := by simpa using hd
      exact hc.not_isDigit hdigit
  · rintro hplaced front back rfl
    obtain ⟨front, c, d, back, rfl, rfl, hc, hd⟩ := hmarked.neighbours
    refine ⟨⟨c, by simp, (hcs c (by simp) hc).resolve_right fun hpunctuation => ?_⟩,
      ⟨d, rfl, (hcs d (by simp) hd).resolve_right fun hpunctuation => ?_⟩⟩
    · exact hplaced ⟨front, c, d :: back, .inr (by simp), hpunctuation⟩
    · exact hplaced ⟨front ++ [c], d, back, .inl rfl, hpunctuation⟩

/-! ## Texts with a point -/

variable {text : String} {strip : Bool}

theorem read?_of_point (strip : Bool) (base : Option Nat) (hpoint : '.' ∈ text.toList) :
    '.' ∈ Text.trim (unquoted text strip) ∧
      read? text strip base =
        ((dropMarks? (Text.trim (unquoted text strip))).bind Binary64.read?).map .float := by
  have hunquoted : '.' ∈ unquoted text strip := by
    cases strip with
    | false => exact hpoint
    | true => exact Text.mem_trimBy hpoint (by decide)
  exact ⟨Text.mem_trimBy hunquoted (by decide), if_pos (by simpa [unquoted] using hunquoted)⟩

/-- A text with a point is read just if it is a decimal number once its underscores are dropped, and
    these may be dropped. -/
theorem read?_isSome_iff_of_point (strip : Bool) (base : Option Nat) (hpoint : '.' ∈ text.toList) :
    (read? text strip base).isSome = true ↔
      WellMarked (Text.trim (unquoted text strip)) ∧
        IsDecimal ((Text.trim (unquoted text strip)).filter (· != '_')) := by
  obtain ⟨hmem, hread⟩ := read?_of_point strip base hpoint
  rw [hread, Option.isSome_map]
  generalize Text.trim (unquoted text strip) = cs at hmem
  have hkept : '.' ∈ cs.filter (· != '_') := List.mem_filter.2 ⟨hmem, by decide⟩
  rw [← read?_isSome_iff_isDecimal hkept]
  constructor
  · intro h
    cases hdrop : dropMarks? cs with
    | none => simp [hdrop] at h
    | some ds =>
      obtain ⟨hmarked, rfl⟩ := dropMarks?_eq_some_iff.1 hdrop
      exact ⟨hmarked, by simpa [hdrop] using h⟩
  · rintro ⟨hmarked, h⟩
    rwa [dropMarks?_eq_some_iff.2 ⟨hmarked, rfl⟩, Option.bind_some]

/-- The text without its underscores. -/
def withoutMarks (text : String) : String := String.ofList (text.toList.filter (· != '_'))

theorem Holds.withoutMarks (h : Holds text strip cs) :
    Holds (withoutMarks text) strip (cs.filter (· != '_')) := by
  obtain ⟨quotes, blanks, blanks', quotes', htext, hquotes, hblanks⟩ := h
  have hkeep {xs ys : List Char} (h : ∀ c ∈ xs ++ ys, c ≠ '_') :
      xs.filter (· != '_') = xs ∧ ys.filter (· != '_') = ys :=
    ⟨List.filter_eq_self.2 fun c hc => by simpa using h c (List.mem_append_left ys hc),
      List.filter_eq_self.2 fun c hc => by simpa using h c (List.mem_append_right xs hc)⟩
  have hquotesKept := hkeep fun c hc heq => by
    subst heq
    exact absurd (hquotes _ hc).2 (by decide)
  have hblanksKept := hkeep fun c hc heq => by
    subst heq
    exact absurd (hblanks _ hc) (by decide)
  refine ⟨quotes, blanks, blanks', quotes', ?_, hquotes, hblanks⟩
  rw [NumberText.withoutMarks, String.toList_ofList, htext]
  simp only [List.filter_append, hquotesKept.1, hquotesKept.2, hblanksKept.1, hblanksKept.2]

/-- What is read of a text with a point is read of it without underscores. -/
theorem read?_withoutMarks {base : Option Nat} {v : Predicate.Value} (hpoint : '.' ∈ text.toList)
    (h : read? text strip base = some v) : read? (withoutMarks text) strip base = some v := by
  obtain ⟨hmarked, hdecimal⟩ := (read?_isSome_iff_of_point strip base hpoint).1 (by rw [h]; rfl)
  have hread := (read?_of_point strip base hpoint).2
  have hpoint' : '.' ∈ (withoutMarks text).toList := by
    rw [withoutMarks, String.toList_ofList]
    exact List.mem_filter.2 ⟨hpoint, by decide⟩
  have hread' := (read?_of_point strip base hpoint').2
  have hholds := (holds_trim text strip).withoutMarks
  have hplain : ∀ c ∈ (Text.trim (unquoted text strip)).filter (· != '_'), Plain c := fun c hc =>
    (hdecimal.cases c hc).elim (fun hdigit => (isDigit_ten.2 hdigit).plain) IsPunctuation.plain
  rw [hread'.trans (by rw [hholds.trim_eq (bare_of_forall hplain)]), ← h, hread,
    dropMarks?_eq_some_iff.2 ⟨hmarked, rfl⟩, dropMarks?_of_not_mem (by simp)]

/-- If a number is read, its underscores stand between digits, and it is read without them too. -/
def ReadsSeparated (text : String) (strip : Bool) (base : Option Nat) : Prop :=
  ∀ v, read? text strip base = some v →
    BetweenDigits (Text.trim (unquoted text strip)) ∧ read? (withoutMarks text) strip base = some v

/-- A text with a point is read just if it is a decimal number without its underscores, of which none is
    at an end or beside another one; and it makes no difference that they are left out.  So the
    underscores that are let through stand between digits, except for those beside the point, a sign or
    the mark of an exponent. -/
theorem readsSeparated_iff (text : String) (strip : Bool) (base : Option Nat)
    (hpoint : '.' ∈ text.toList) :
    ((read? text strip base).isSome = true ↔
      WellMarked (Text.trim (unquoted text strip)) ∧
        IsDecimal ((Text.trim (unquoted text strip)).filter (· != '_'))) ∧
    (∀ v, read? text strip base = some v → read? (withoutMarks text) strip base = some v) ∧
    (ReadsSeparated text strip base ↔
      ¬ (WellMarked (Text.trim (unquoted text strip)) ∧
        IsDecimal ((Text.trim (unquoted text strip)).filter (· != '_')) ∧
        Misplaced (Text.trim (unquoted text strip)))) := by
  have hread := read?_isSome_iff_of_point strip base hpoint
  have hplaces (hmarked : WellMarked (Text.trim (unquoted text strip)))
      (hdecimal : IsDecimal ((Text.trim (unquoted text strip)).filter (· != '_'))) :
      BetweenDigits (Text.trim (unquoted text strip)) ↔
        ¬ Misplaced (Text.trim (unquoted text strip)) :=
    betweenDigits_iff hmarked fun c hc hne =>
      hdecimal.cases c (List.mem_filter.2 ⟨hc, by simpa using hne⟩)
  refine ⟨hread, fun v => read?_withoutMarks hpoint, ?_, ?_⟩
  · rintro hseparated ⟨hmarked, hdecimal, hmisplaced⟩
    obtain ⟨v, hv⟩ := Option.isSome_iff_exists.1 (hread.2 ⟨hmarked, hdecimal⟩)
    exact (hplaces hmarked hdecimal).1 (hseparated v hv).1 hmisplaced
  · intro hnone v hv
    obtain ⟨hmarked, hdecimal⟩ := hread.1 (by rw [hv]; rfl)
    refine ⟨(hplaces hmarked hdecimal).2 fun hmisplaced => ?_, read?_withoutMarks hpoint hv⟩
    exact hnone ⟨hmarked, hdecimal, hmisplaced⟩

/-- An underscore between digits is let through. -/
theorem readsSeparated_iff_thousand :
    '.' ∈ "'1_0.5 '".toList ∧ (read? "'1_0.5 '" true none).isSome = true ∧
      ReadsSeparated "'1_0.5 '" true none := by
  have hpoint : '.' ∈ "'1_0.5 '".toList := by decide
  have htrim : Text.trim (unquoted "'1_0.5 '" true) = ['1', '_', '0', '.', '5'] := by decide
  obtain ⟨hread, -, hseparated⟩ := readsSeparated_iff "'1_0.5 '" true none hpoint
  rw [htrim] at hread hseparated
  have hmarked : WellMarked ['1', '_', '0', '.', '5'] := ⟨by decide, by decide, by decide⟩
  have hdecimal : IsDecimal (['1', '_', '0', '.', '5'].filter (· != '_')) :=
    ⟨[], ['1', '0'], ['5'], [], by decide, .inl rfl, List.all_eq_true.1 rfl, List.all_eq_true.1 rfl,
      by decide, .inl rfl⟩
  refine ⟨hpoint, hread.2 ⟨hmarked, hdecimal⟩, hseparated.2 ?_⟩
  -- the only underscore has a digit on either side
  rintro ⟨-, -, front, c, back, heq | heq, hc⟩
  · rcases front with _ | ⟨_, _ | ⟨_, _ | ⟨_, _ | ⟨_, _ | ⟨_, front⟩⟩⟩⟩⟩ <;> simp at heq
    rw [← heq.2.1] at hc
    exact absurd (by decide) hc.not_isDigit
  · rcases front with _ | ⟨_, _ | ⟨_, _ | ⟨_, _ | ⟨_, _ | ⟨_, front⟩⟩⟩⟩⟩ <;> simp at heq
    rw [← heq.1] at hc
    exact absurd (by decide) hc.not_isDigit

/-- An underscore before the point is let through as well. -/
theorem not_readsSeparated_point :
    '.' ∈ "1_.5".toList ∧ (read? "1_.5" false none).isSome = true ∧
      ¬ ReadsSeparated "1_.5" false none := by
  have hpoint : '.' ∈ "1_.5".toList := by decide
  have htrim : Text.trim (unquoted "1_.5" false) = ['1', '_', '.', '5'] := by decide
  have hread := read?_isSome_iff_of_point false none hpoint
  rw [htrim] at hread
  have hmarked : WellMarked ['1', '_', '.', '5'] := ⟨by decide, by decide, by decide⟩
  have hdecimal : IsDecimal (['1', '_', '.', '5'].filter (· != '_')) :=
    ⟨[], ['1'], ['5'], [], by decide, .inl rfl, List.all_eq_true.1 rfl, List.all_eq_true.1 rfl,
      by decide, .inl rfl⟩
  have hsome := hread.2 ⟨hmarked, hdecimal⟩
  refine ⟨hpoint, hsome, fun hseparated => ?_⟩
  obtain ⟨v, hv⟩ := Option.isSome_iff_exists.1 hsome
  obtain ⟨hbetween, -⟩ := hseparated v hv
  rw [htrim] at hbetween
  obtain ⟨-, c, hc, hdigit⟩ := hbetween ['1'] ['.', '5'] rfl
  obtain rfl : '.' = c := Option.some.inj hc
  exact absurd hdigit (by decide)

end RuleSieve.NumberText
