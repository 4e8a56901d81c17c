/-
  The decimal text of an integer, and its readers.

  There is one way in which an integer is written, and there are three in which one is read: the
  function `int` of predicates, the number of a bound text, and the tokens of a predicate.  Each reads
  what is written as the integer it was written from (`read_written_int`); tokens have no sign, so there
  the integer is not negative.
-/
import RuleSieve.Predicate.Function
import RuleSieve.Proofs.Spelling

namespace RuleSieve.Predicate

open Decimal (isDigit)

variable {n : Int}

/-! ## The characters of the text -/

/-- The sign that an integer is written with. -/
def signOf (n : Int) : List Char := if n < 0 then ['-'] else []

/-- An integer is written as its sign and the digits of its magnitude. -/
theorem ofInt_eq (n : Int) : Decimal.ofInt n = signOf n ++ Decimal.digits n.natAbs := by
  unfold Decimal.ofInt signOf
  split <;> rfl

theorem isSign_signOf (n : Int) : NumberText.IsSign (signOf n) := by
  unfold signOf
  split
  · exact .inr (.inr rfl)
  · exact .inl rfl

theorem signedNat_natAbs (n : Int) : NumberText.signedNat (signOf n = ['-']) n.natAbs = n := by
  unfold NumberText.signedNat signOf
  by_cases hn : n < 0
  · rw [if_pos hn, if_pos (by decide)]
    omega
  · rw [if_neg hn, if_neg (by decide)]
    omega

/-- The digits of a number are a run without separators. -/
theorem spaced_digits (k : Nat) : NumberText.Spaced (NumberText.IsDigit 10) (Decimal.digits k) :=
  NumberText.spaced_of_forall Nat.toDigits_ne_nil fun c hc =>
    NumberText.isDigit_ten.2 (isDigit_digits k c hc)

/-- The decimal text of an integer spells that integer. -/
theorem spells_ofInt (n : Int) : NumberText.Spells 10 n (Decimal.ofInt n) := by
  refine ⟨signOf n, [], Decimal.digits n.natAbs, ofInt_eq n, isSign_signOf n, .inl rfl,
    spaced_digits n.natAbs, ?_⟩
  rw [runValue_digits, signedNat_natAbs]

/-- The text has neither blanks nor underscores. -/
theorem plain_ofInt (n : Int) : ∀ c ∈ Decimal.ofInt n, Text.isBlank c = false ∧ c ≠ '_' := by
  have hsign : ∀ c ∈ signOf n, Text.isBlank c = false ∧ c ≠ '_' := by
    unfold signOf
    split
    · exact List.forall_mem_singleton.2 (by decide)
    · exact List.forall_mem_nil _
  rw [ofInt_eq]
  refine List.forall_mem_append.2 ⟨hsign, fun c hc => ?_⟩
  have hdigit := NumberText.isDigit_ten.2 (isDigit_digits n.natAbs c hc)
  exact ⟨hdigit.plain.1, fun hmark => NumberText.not_isDigit_underscore 10 (hmark ▸ hdigit)⟩

/-! ## Reading it -/

theorem readInt?_ofInt (n : Int) : Decimal.readInt? (Decimal.ofInt n) = some n := by
  have hcut : Decimal.cutSign (Decimal.ofInt n) =
      (decide (signOf n = ['-']), Decimal.digits n.natAbs) := by
    rw [ofInt_eq]
    exact NumberText.cutSign_parts (isSign_signOf n) (.inl rfl) (spaced_digits n.natAbs)
  have hdigits :
      ((Decimal.digits n.natAbs).isEmpty || !(Decimal.digits n.natAbs).all isDigit) = false := by
    rw [List.all_eq_true.2 (isDigit_digits n.natAbs)]
    simp [Decimal.digits, Nat.toDigits_ne_nil]
  unfold Decimal.readInt?
  rw [hcut]
  dsimp only
  rw [if_neg (by simp [hdigits]), value_digits]
  exact congrArg some (signedNat_natAbs n)

/-- There is nothing to be left out of the text, and there is room for the integer. -/
theorem readInteger?_ofInt (n : Int64) : readInteger? (Decimal.ofInt n.toInt) = some n := by
  have hplain := plain_ofInt n.toInt
  have htrim : Text.trim (Decimal.ofInt n.toInt) = Decimal.ofInt n.toInt := Text.trim_eq_self
    (fun c hc => (hplain c (List.mem_of_mem_head? hc)).1)
    (fun c hc => (hplain c (List.mem_of_mem_getLast? hc)).1)
  have hfilter : (Decimal.ofInt n.toInt).filter (· != '_') = Decimal.ofInt n.toInt :=
    List.filter_eq_self.2 fun c hc => by simpa using (hplain c hc).2
  rw [readInteger?, htrim, hfilter, readInt?_ofInt, Option.bind_some, Word.ofInt?_eq_some_iff]

/-- What is read as an integer is the integer that `int` gives. -/
theorem call_int_str {s : String} {n : Int64} (h : readInteger? s.toList = some n) :
    call "int" [.str s] = .ok (.int n) := by
  show toInt (.str s) = .ok (.int n)
  rw [toInt, h]

/-- A written integer is read back as a literal, in base ten. -/
theorem read?_ofInt {n : Int64} {text : String} (htext : text.toList = Decimal.ofInt n.toInt)
    (strip : Bool) {base : Option Nat} (hbase : base.getD 10 = 10) :
    NumberText.read? text strip base = some (.int n) := by
  have hholds := htext ▸ NumberText.holds_toList text strip
  have hspells : NumberText.Spells (base.getD 10) n.toInt (Decimal.ofInt n.toInt) := by
    rw [hbase]
    exact spells_ofInt _
  rw [NumberText.read?_eq_literal (by omega) hholds hspells, NumberText.literal,
    if_pos (Word.fits_toInt n), Int64.ofInt_toInt]

/-- A written integer that is not negative is one token. -/
theorem lexemes_ofInt {n : Int64} (hn : 0 ≤ n.toInt) :
    lexemes (Decimal.ofInt n.toInt) = .ok [⟨0, Decimal.ofInt n.toInt, .int n⟩] := by
  have htext : Decimal.ofInt n.toInt = Decimal.digits n.toInt.natAbs := if_neg (Int.not_lt.2 hn)
  have hwritten : Lexeme.IsWritten ⟨0, Decimal.digits n.toInt.natAbs, .int n⟩ [] := by
    refine ⟨.int (isNumeral_digits _) ?_, fun c hc => nomatch hc⟩
    rw [runValue_digits]
    omega
  have hlaid : Laid Lexeme.IsRead 0 [⟨0, Decimal.digits n.toInt.natAbs, .int n⟩]
      (Decimal.digits n.toInt.natAbs ++ []) := .lexeme hwritten.isRead .done
  rw [htext]
  rw [List.append_nil] at hlaid
  exact lexemesFrom_of_laid hlaid

/-- **What is written of an integer is read as that integer**, by `int`, as the number of a bound text
    in base ten, with or without quotes left out, and, unless it is negative, as one token. -/
theorem read_written_int (n : Int64) :
    call "str" [.int n] = .ok (.str (Value.int n).text) ∧
      call "int" [.str (Value.int n).text] = .ok (.int n) ∧
      (∀ strip, NumberText.read? (Value.int n).text strip none = some (.int n) ∧
        NumberText.read? (Value.int n).text strip (some 10) = some (.int n)) ∧
      (0 ≤ n.toInt →
        lexemes (Value.int n).text.toList = .ok [⟨0, (Value.int n).text.toList, .int n⟩]) := by
  have htext : (Value.int n).text.toList = Decimal.ofInt n.toInt := by
    rw [Value.text, String.toList_ofList]
  refine ⟨rfl, call_int_str ?_, fun strip => ⟨read?_ofInt htext strip rfl, read?_ofInt htext strip rfl⟩,
    fun hn => ?_⟩
  · rw [htext, readInteger?_ofInt]
  · rw [htext]
    exact lexemes_ofInt hn

/-- The least integer is read back by `int`, and the greatest one as a token. -/
theorem read_written_int_limits :
    call "int" [.str (Value.int Int64.minValue).text] = .ok (.int Int64.minValue) ∧
      0 ≤ Int64.maxValue.toInt ∧ lexemes (Value.int Int64.maxValue).text.toList =
        .ok [⟨0, (Value.int Int64.maxValue).text.toList, .int Int64.maxValue⟩] :=
  ⟨(read_written_int Int64.minValue).2.1, by decide,
    (read_written_int Int64.maxValue).2.2.2 (by decide)⟩

end RuleSieve.Predicate
