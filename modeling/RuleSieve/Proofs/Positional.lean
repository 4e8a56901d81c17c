/-
  Positional notation.

  A text spells an integer by a sign, a mark of the base and a run of digits, the last of which counts
  ones (`Spells`); zeros in front, the case of letters and underscores make no difference.  A run is read
  to its value where there is room for it (`readRun_eq`), so that every spelling of an integer of 64 bits
  is read as that integer, whatever blanks and quotes stand around it (`read?_of_spells`).
-/
import Mathlib.Data.Nat.Digits.Defs
import RuleSieve.Proofs.Enclosure

namespace RuleSieve.NumberText

open Decimal (cutSign)
open Predicate (Value)

variable {base : Nat} {cs : List Char}

/-! ## Digits -/

/-- The values of the digits of a run; the underscores between them have none. -/
def digitsIn (base : Nat) (cs : List Char) : List Nat := cs.filterMap (digitIn? base)

/-- The value of a run of digits. -/
def runValue (base : Nat) (cs : List Char) : Nat := Nat.ofDigits base (digitsIn base cs).reverse

theorem digitsIn_cons {c : Char} {d : Nat} (h : digitIn? base c = some d) (cs : List Char) :
    digitsIn base (c :: cs) = d :: digitsIn base cs := List.filterMap_cons_some h

/-- Underscores have no digit. -/
theorem digitsIn_filter (cs : List Char) :
    digitsIn base (cs.filter (· != '_')) = digitsIn base cs := by
  rw [digitsIn, digitsIn, List.filterMap_filter]
  refine List.filterMap_congr fun c _ => ?_
  by_cases hc : c = '_'
  · subst hc
    rfl
  · simp [hc]

/-- The value is built from the left, digit by digit. -/
theorem runValue_eq_foldl (cs : List Char) :
    runValue base cs = (digitsIn base cs).foldl (fun n d => n * base + d) 0 := by
  rw [runValue, Nat.ofDigits_eq_foldr, List.foldr_reverse]
  congr 1
  funext n d
  show d + base * n = n * base + d
  rw [Nat.add_comm, Nat.mul_comm]

/-- A digit is below the base. -/
theorem digit_lt {c : Char} {d : Nat} (h : digitIn? base c = some d) : d < base := by
  rw [digitIn?, Option.filter_eq_some_iff] at h
  exact of_decide_eq_true h.2

/-- Digits that are added make no number smaller. -/
theorem le_foldl (hbase : 0 < base) (n : Nat) (ds : List Nat) :
    n ≤ ds.foldl (fun n d => n * base + d) n := by
  induction ds generalizing n with
  | nil => exact Nat.le_refl n
  | cons d ds ih =>
    have hstep : n ≤ n * base + d := Nat.le_add_right_of_le (Nat.le_mul_of_pos_right n hbase)
    exact Nat.le_trans hstep (ih _)

/-- A run of digits is added up from the left, and refused if the sum passes the limit. -/
theorem readRun_eq_foldl (hbase : 0 < base) {limit n : Nat} (hn : n ≤ limit)
    (hcs : ∀ c ∈ cs, IsDigit base c) :
    readRun base limit n cs =
      let v := (digitsIn base cs).foldl (fun n d => n * base + d) n
      if v ≤ limit then .value v else .tooLarge := by
  induction cs generalizing n with
  | nil => exact (if_pos hn).symm
  | cons c cs ih =>
    obtain ⟨d, hd, hrest⟩ := isDigit_cons.1 hcs
    rw [readRun, hd, digitsIn_cons hd, List.foldl_cons]
    dsimp only
    by_cases hlarge : limit < n * base + d
    · have hgrown := le_foldl hbase (n * base + d) (digitsIn base cs)
      rw [if_pos hlarge, if_neg (Nat.not_le.2 (Nat.lt_of_lt_of_le hlarge hgrown))]
    · rw [if_neg hlarge, ih (Nat.not_lt.1 hlarge) hrest]

/-- A run of digits is read to its value, or is too large. -/
theorem readRun_eq (hbase : 0 < base) (limit : Nat) (hcs : ∀ c ∈ cs, IsDigit base c) :
    readRun base limit 0 cs =
      if runValue base cs ≤ limit then .value (runValue base cs) else .tooLarge := by
  rw [readRun_eq_foldl hbase (Nat.zero_le limit) hcs, runValue_eq_foldl]

/-! ## Spellings -/

/-- The integer that a sign and a magnitude make. -/
def signedNat (negative : Bool) (n : Nat) : Int := if negative then -(n : Int) else n

/-- The text spells the integer in the base. -/
def Spells (base : Nat) (n : Int) (cs : List Char) : Prop :=
  ∃ sign mark run, cs = sign ++ (mark ++ run) ∧ IsSign sign ∧ IsMark base mark ∧
    Spaced (IsDigit base) run ∧ n = signedNat (sign = ['-']) (runValue base run)

/-- A sign is neither blank, nor a quote, nor a point. -/
theorem IsSign.plain {sign : List Char} (h : IsSign sign) : ∀ c ∈ sign, Plain c ∧ c ≠ '.' := by
  rcases h with rfl | rfl | rfl
  · exact List.forall_mem_nil _
  · exact List.forall_mem_singleton.2 (by decide)
  · exact List.forall_mem_singleton.2 (by decide)

/-- The mark of a base is neither blank, nor a quote, nor a point. -/
theorem IsMark.plain {mark : List Char} (h : IsMark base mark) :
    ∀ c ∈ mark, Plain c ∧ c ≠ '.' := by
  have hpair {c : Char} (hc : Plain c ∧ c ≠ '.') : ∀ d ∈ ['0', c], Plain d ∧ d ≠ '.' :=
    List.forall_mem_cons.2 ⟨by decide, List.forall_mem_singleton.2 hc⟩
  have hmarks : ∀ mark ∈ baseMarks base, ∀ c ∈ mark, Plain c ∧ c ≠ '.' := by
    intro mark hmem
    unfold baseMarks at hmem
    split at hmem
    · rcases List.mem_pair.1 hmem with rfl | rfl <;> exact hpair (by decide)
    · rcases List.mem_pair.1 hmem with rfl | rfl <;> exact hpair (by decide)
    · rcases List.mem_pair.1 hmem with rfl | rfl <;> exact hpair (by decide)
    · cases hmem
  rcases h with rfl | ⟨mark, hmem, rfl | rfl⟩
  · exact fun c hc => absurd hc List.not_mem_nil
  · exact hmarks mark hmem
  · exact List.forall_mem_append.2 ⟨hmarks mark hmem, List.forall_mem_singleton.2 (by decide)⟩

/-- Digits and separators are neither blanks, nor quotes, nor points. -/
theorem Spaced.plain {run : List Char} (h : Spaced (IsDigit base) run) :
    ∀ c ∈ run, Plain c ∧ c ≠ '.' := by
  intro c hc
  by_cases hmark : c = '_'
  · subst hmark
    decide
  · have hdigit := (h.wellMarked (not_isDigit_underscore base)).2 c hc hmark
    exact ⟨hdigit.plain, hdigit.ne_of_lt (by decide)⟩

/-- A text that holds a spelling has no point. -/
theorem Holds.not_mem_point {text : String} {strip : Bool} (h : Holds text strip cs)
    (hcs : '.' ∉ cs) : '.' ∉ unquoted text strip := by
  obtain ⟨quotes, blanks, blanks', quotes', htext, hquotes, hblanks⟩ := h
  have hpoint : '.' ∉ text.toList := by
    rw [htext]
    intro hmem
    simp only [List.mem_append] at hmem hquotes hblanks
    rcases hmem with hmem | (hmem | hmem | hmem) | hmem
    · exact absurd (hquotes _ (.inl hmem)).2 (by decide)
    · exact absurd (hblanks _ (.inl hmem)) (by decide)
    · exact hcs hmem
    · exact absurd (hblanks _ (.inr hmem)) (by decide)
    · exact absurd (hquotes _ (.inr hmem)).2 (by decide)
  intro hmem
  cases strip with
  | false => exact hpoint hmem
  | true => exact hpoint (Text.mem_of_mem_trimBy hmem)

/-! ## Reading -/

/-- What is read of a sign and the digits that are left of a number. -/
def readSigned (base : Nat) (negative : Bool) (ds : List Char) : Option Value :=
  if runValue base ds ≤ limit negative then some (signedInt negative (runValue base ds))
  else (wideMagnitude? base ds).map fun magnitude =>
    .float (if negative then -magnitude else magnitude)

/-- A text that holds a spelling is read by its sign and its digits. -/
theorem read?_of_holds {base : Option Nat} (hbase : 2 ≤ base.getD 10 ∧ base.getD 10 ≤ 36)
    {text : String} {strip : Bool} {sign mark run : List Char} (hsign : IsSign sign)
    (hmark : IsMark (base.getD 10) mark) (hrun : Spaced (IsDigit (base.getD 10)) run)
    (htext : Holds text strip (sign ++ (mark ++ run))) :
    read? text strip base =
      readSigned (base.getD 10) (sign = ['-']) (run.filter (· != '_')) := by
  have hplain : ∀ c ∈ sign ++ (mark ++ run), Plain c ∧ c ≠ '.' := List.forall_mem_append.2
    ⟨hsign.plain, List.forall_mem_append.2 ⟨hmark.plain, hrun.plain⟩⟩
  have hpoint : '.' ∉ sign ++ (mark ++ run) := fun hmem => (hplain '.' hmem).2 rfl
  have htrim := htext.trim_eq (bare_of_forall fun c hc => (hplain c hc).1)
  have hread : read? text strip base = readInt? (base.getD 10) (unquoted text strip) :=
    if_neg (by simpa [unquoted] using htext.not_mem_point hpoint)
  rw [hread]
  generalize base.getD 10 = base at hbase hmark hrun
  have hin : ¬ (base < 2 || 36 < base) = true := by
    simp only [Bool.or_eq_true, decide_eq_true_eq]
    omega
  have hcut : cutSign (Text.trim (unquoted text strip)) = (decide (sign = ['-']), mark ++ run) := by
    rw [htrim, cutSign_parts hsign hmark hrun]
  have hdrop : dropMarks? (dropBaseMark base (mark ++ run)) = some (run.filter (· != '_')) := by
    rw [dropBaseMark_append hmark hrun, dropMarks?_eq_some_iff]
    exact ⟨(hrun.wellMarked (not_isDigit_underscore base)).1, rfl⟩
  obtain ⟨ds, hds, hne, hdigits⟩ := (spaced_iff (not_isDigit_underscore base)).1 hrun
  obtain rfl : run.filter (· != '_') = ds := (dropMarks?_eq_some_iff.1 hds).2
  generalize run.filter (· != '_') = ds at hdrop hne hdigits
  have hhead {c : Char} {rest : List Char} (heq : ds = c :: rest) : c ≠ '+' ∧ c ≠ '-' :=
    (hdigits c (heq ▸ List.mem_cons_self)).ne_sign
  unfold readInt?
  rw [if_neg hin, hcut]
  simp only [hdrop, Option.bind_eq_bind, Option.bind_some]
  split
  · exact absurd rfl hne
  · exact absurd rfl (hhead rfl).1
  · exact absurd rfl (hhead rfl).2
  · rw [readSigned, ← limit, readRun_eq (by omega) _ hdigits]
    by_cases hfits : runValue base ds ≤ limit (sign = ['-'])
    · rw [if_pos hfits, if_pos hfits]
    · rw [if_neg hfits, if_neg hfits]
      cases wideMagnitude? base ds <;> rfl

/-- An integer has room in 64 bits just if its magnitude is within the limit of its sign. -/
theorem le_limit_iff {n : Int} {negative : Bool} {v : Nat} (hn : n = signedNat negative v) :
    v ≤ limit negative ↔ Word.Fits n := by
  rw [hn, signedNat, limit, Word.Fits, Word.half]
  cases negative
  · rw [if_neg Bool.false_ne_true, if_neg Bool.false_ne_true]
    omega
  · rw [if_pos rfl, if_pos rfl]
    omega

/-- A number that fits into 64 bits is read as it is. -/
theorem readSigned_of_fits {negative : Bool} {ds : List Char} {n : Int64}
    (hn : n.toInt = signedNat negative (runValue base ds)) :
    readSigned base negative ds = some (.int n) := by
  have hfits := (le_limit_iff hn).2 (Word.fits_toInt n)
  rw [readSigned, if_pos hfits, signedInt, ← signedNat, ← hn, Int64.ofInt_toInt]

/-- A text that holds a spelling of an integer of 64 bits, in a base from 2 to 36, is read as that
    integer; without a base, it is spelled in base ten. -/
theorem read?_of_spells {base : Option Nat} (hbase : 2 ≤ base.getD 10 ∧ base.getD 10 ≤ 36)
    {text : String} {strip : Bool} {n : Int64} (htext : Holds text strip cs)
    (hcs : Spells (base.getD 10) n.toInt cs) : read? text strip base = some (.int n) := by
  obtain ⟨sign, mark, run, rfl, hsign, hmark, hrun, hn⟩ := hcs
  rw [read?_of_holds hbase hsign hmark hrun htext]
  refine readSigned_of_fits ?_
  rw [runValue, digitsIn_filter]
  exact hn

/-- The least integer in base 16, with all that may stand in and around it. -/
theorem read?_of_spells_least :
    Holds "'` -0x_080_0000_0000000000\t`" true "-0x_080_0000_0000000000".toList ∧
      Spells 16 Int64.minValue.toInt "-0x_080_0000_0000000000".toList ∧
      read? "'` -0x_080_0000_0000000000\t`" true (some 16) = some (.int Int64.minValue) := by
  have hholds : Holds "'` -0x_080_0000_0000000000\t`" true "-0x_080_0000_0000000000".toList :=
    ⟨['\'', '`'], [' '], ['\t'], ['`'], by decide, by simp [isQuote], by simp [Text.isBlank]⟩
  have hspells : Spells 16 Int64.minValue.toInt "-0x_080_0000_0000000000".toList := by
    have hrun : Spaced (IsDigit 16) "080_0000_0000000000".toList :=
      (spaced_iff (not_isDigit_underscore 16)).2
        ⟨"08000000000000000".toList, by decide, by decide, List.all_eq_true.1 rfl⟩
    exact ⟨['-'], ['0', 'x', '_'], _, by decide, .inr (.inr rfl),
      .inr ⟨['0', 'x'], by decide, .inr rfl⟩, hrun, by decide⟩
  exact ⟨hholds, hspells, read?_of_spells (by decide) hholds hspells⟩

/-! ## Every integer has a spelling -/

/-- The digit of a value below 36, in lower case. -/
def digitOf (d : Nat) : Char := Char.ofNat (if d < 10 then 48 + d else 87 + d)

/-- The character of a digit is read as the digit. -/
theorem digitIn?_digitOf {d : Nat} (hd : d < base) (hbase : base ≤ 36) :
    digitIn? base (digitOf d) = some d := by
  have hall : ∀ d < 36, digitIn? 36 (digitOf d) = some d := by decide
  have hwidest := hall d (by omega)
  rw [digitIn?, Option.filter_eq_some_iff] at hwidest ⊢
  exact ⟨hwidest.1, decide_eq_true hd⟩

/-- Written digits are read back. -/
theorem digitsIn_map_digitOf (hbase : base ≤ 36) {ds : List Nat} (hds : ∀ d ∈ ds, d < base) :
    digitsIn base (ds.map digitOf) = ds := by
  induction ds with
  | nil => rfl
  | cons d ds ih =>
    obtain ⟨hd, hrest⟩ := List.forall_mem_cons.1 hds
    rw [List.map_cons, digitsIn_cons (digitIn?_digitOf hd hbase), ih hrest]

/-- Every integer can be written in every base. -/
theorem exists_spells (hbase : 2 ≤ base ∧ base ≤ 36) (n : Int) : ∃ cs, Spells base n cs := by
  -- a zero in front makes a run of digits of the number zero too
  have hdigits : ∀ d ∈ 0 :: (Nat.digits base n.natAbs).reverse, d < base :=
    List.forall_mem_cons.2 ⟨by omega, fun d hd =>
      Nat.digits_lt_base hbase.1 (List.mem_reverse.1 hd)⟩
  have hrun : Spaced (IsDigit base) ((0 :: (Nat.digits base n.natAbs).reverse).map digitOf) := by
    refine spaced_of_forall (List.cons_ne_nil _ _) fun c hc => ?_
    obtain ⟨d, hd, rfl⟩ := List.mem_map.1 hc
    rw [IsDigit, digitIn?_digitOf (hdigits d hd) hbase.2]
    rfl
  have hvalue : runValue base ((0 :: (Nat.digits base n.natAbs).reverse).map digitOf) = n.natAbs := by
    rw [runValue, digitsIn_map_digitOf hbase.2 hdigits, List.reverse_cons, List.reverse_reverse,
      Nat.ofDigits_append, Nat.ofDigits_digits]
    rfl
  by_cases hn : n < 0
  · refine ⟨_, ['-'], [], _, rfl, .inr (.inr rfl), .inl rfl, hrun, ?_⟩
    rw [hvalue]
    show n = -(n.natAbs : Int)
    omega
  · refine ⟨_, [], [], _, rfl, .inl rfl, .inl rfl, hrun, ?_⟩
    rw [hvalue]
    show n = (n.natAbs : Int)
    omega

end RuleSieve.NumberText
