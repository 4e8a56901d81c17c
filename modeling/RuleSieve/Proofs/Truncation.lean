/-
  Floats that become integers.

  A finite float denotes a rational number, and `int` takes it without its fraction, as long as the result
  has room in 64 bits.  That is so from the least integer on up to, but not with, the negation of it
  (`fits_towardZero_iff`).  What lies beyond should be an error and becomes the nearest integer instead
  (`inventsNone_iff`).
-/
import Mathlib.Data.Rat.Floor
import Mathlib.Tactic.Linarith
import Mathlib.Tactic.NormNum
import RuleSieve.Predicate.Evaluation

namespace RuleSieve.Binary64

/-! ## Numbers without their fraction -/

/-- The number without its fraction: of the integers not further from zero, the nearest one. -/
def towardZero (q : ℚ) : ℤ := if q < 0 then ⌈q⌉ else ⌊q⌋

theorem towardZero_of_nonneg {q : ℚ} (h : 0 ≤ q) : towardZero q = ⌊q⌋ := if_neg (not_lt.2 h)

theorem towardZero_neg (q : ℚ) : towardZero (-q) = -towardZero q := by
  unfold towardZero
  rcases lt_trichotomy q 0 with h | rfl | h
  · rw [if_neg (by linarith), if_pos h, Int.floor_neg]
  · simp
  · rw [if_pos (by linarith), if_neg (by linarith), Int.ceil_neg]

theorem towardZero_intCast (z : ℤ) : towardZero z = z := by
  unfold towardZero
  rw [Int.ceil_intCast, Int.floor_intCast, ite_self]

/-- Between two integers the fraction can be left out without leaving them. -/
theorem towardZero_mem {q : ℚ} {a b : ℤ} (ha : (a : ℚ) ≤ q) (hb : q ≤ b) :
    a ≤ towardZero q ∧ towardZero q ≤ b := by
  unfold towardZero
  split
  · exact ⟨by exact_mod_cast ha.trans (Int.le_ceil q), Int.ceil_le.2 hb⟩
  · exact ⟨Int.le_floor.2 ha, by exact_mod_cast (Int.floor_le q).trans hb⟩

/-! ## What finite floats denote -/

/-- The number that a float denotes, if it is finite. -/
def number? (x : Float) : Option ℚ :=
  match exact x with
  | .finite negative mantissa exponent =>
    let size : ℚ := mantissa * 2 ^ exponent
    some (if negative then -size else size)
  | _ => none

variable {x : Float} {q : ℚ}

theorem finite_of_number? (h : number? x = some q) :
    ∃ negative mantissa exponent, exact x = .finite negative mantissa exponent ∧
      q = if negative then -((mantissa : ℚ) * 2 ^ exponent) else mantissa * 2 ^ exponent := by
  unfold number? at h
  split at h
  · next negative mantissa exponent hexact =>
    exact ⟨negative, mantissa, exponent, hexact, (Option.some.inj h).symm⟩
  · cases h

/-- A finite float is a mantissa of at most 53 bits with an exponent. -/
theorem exact_of_isFinite (h : isFinite x = true) :
    ∃ mantissa exponent, exact x = .finite (isNegative x) mantissa exponent ∧ mantissa < 2 ^ 53 := by
  have hfraction : magnitude x % impliedBit < impliedBit := Nat.mod_lt _ (by decide)
  have hfield : magnitude x / impliedBit ≠ 2047 := by
    have hlt : magnitude x < 2047 * impliedBit := of_decide_eq_true h
    exact (Nat.div_lt_of_lt_mul (by rwa [Nat.mul_comm])).ne
  have hbit : impliedBit + impliedBit = 2 ^ 53 := rfl
  unfold exact
  dsimp only
  rw [if_neg hfield]
  by_cases hzero : magnitude x / impliedBit = 0
  · rw [if_pos hzero]
    exact ⟨_, _, rfl, by omega⟩
  · rw [if_neg hzero]
    exact ⟨_, _, rfl, by omega⟩

theorem mantissa_mul_zpow_nonneg (mantissa : Nat) (exponent : Int) :
    0 ≤ (mantissa : ℚ) * 2 ^ exponent :=
  mul_nonneg (Nat.cast_nonneg mantissa) (zpow_nonneg zero_le_two exponent)

/-- A mantissa and an exponent as a quotient of natural numbers. -/
theorem mantissa_mul_zpow (mantissa : Nat) (exponent : Int) :
    (mantissa : ℚ) * 2 ^ exponent =
      (mantissa * twoTo exponent.toNat : Nat) / (twoTo (-exponent).toNat : Nat) := by
  have hcast (k : Nat) : ((twoTo k : Nat) : ℚ) = 2 ^ k := by exact_mod_cast rfl
  rw [Nat.cast_mul, hcast, hcast]
  rcases Int.le_total 0 exponent with h | h
  · obtain ⟨k, rfl⟩ := Int.eq_ofNat_of_zero_le h
    rw [Int.toNat_natCast, Int.toNat_neg_natCast, pow_zero, div_one, zpow_natCast]
  · obtain ⟨k, hk⟩ := Int.eq_ofNat_of_zero_le (Int.neg_nonneg_of_nonpos h)
    obtain rfl : exponent = -(k : Int) := by omega
    rw [Int.neg_neg, Int.toNat_natCast, Int.toNat_neg_natCast, pow_zero, mul_one, zpow_neg,
      zpow_natCast, div_eq_mul_inv]

/-- A float without its fraction is the number that it denotes, without its fraction. -/
theorem truncate?_eq (h : number? x = some q) : truncate? x = some (towardZero q) := by
  obtain ⟨negative, mantissa, exponent, hexact, rfl⟩ := finite_of_number? h
  have hsize : towardZero ((mantissa : ℚ) * 2 ^ exponent) =
      (mantissa * twoTo exponent.toNat / twoTo (-exponent).toNat : Nat) := by
    rw [towardZero_of_nonneg (mantissa_mul_zpow_nonneg ..), mantissa_mul_zpow, Rat.floor_natCast_div_natCast]
    norm_cast
  rw [truncate?, hexact]
  cases negative with
  | true => exact congrArg some (by rw [if_pos rfl, if_pos rfl, towardZero_neg, hsize])
  | false => exact congrArg some hsize.symm

/-- A finite float is an integer, or smaller than the floats that have to be integers. -/
theorem integer_or_small (hfinite : isFinite x = true) (h : number? x = some q) :
    (∃ z : ℤ, q = z) ∨ |q| ≤ 2 ^ 53 := by
  obtain ⟨negative, mantissa, exponent, hexact, rfl⟩ := finite_of_number? h
  obtain ⟨mantissa', exponent', hexact', hlt⟩ := exact_of_isFinite hfinite
  obtain ⟨-, rfl, rfl⟩ := Exact.finite.inj (hexact.symm.trans hexact')
  rcases Int.le_total 0 exponent with hle | hle
  · obtain ⟨k, rfl⟩ := Int.eq_ofNat_of_zero_le hle
    refine .inl ⟨if negative then -(mantissa * 2 ^ k) else mantissa * 2 ^ k, ?_⟩
    cases negative <;> simp
  · refine .inr ?_
    have hsize : |(mantissa : ℚ) * 2 ^ exponent| ≤ 2 ^ 53 := by
      rw [abs_of_nonneg (mantissa_mul_zpow_nonneg ..)]
      calc (mantissa : ℚ) * 2 ^ exponent ≤ mantissa * 1 :=
            mul_le_mul_of_nonneg_left (zpow_le_one_of_nonpos₀ one_le_two hle) (Nat.cast_nonneg mantissa)
        _ ≤ 2 ^ 53 := by
            rw [mul_one]
            exact_mod_cast hlt.le
    cases negative
    · exact hsize
    · rw [if_pos rfl, abs_neg]
      exact hsize

/-- A finite float has room without its fraction just if it has room itself: no float lies less than
    one below the least integer. -/
theorem fits_towardZero_iff (hfinite : isFinite x = true) (h : number? x = some q) :
    Word.Fits (towardZero q) ↔ -(Word.half : ℚ) ≤ q ∧ q < Word.half := by
  rcases integer_or_small hfinite h with ⟨z, rfl⟩ | hsmall
  · rw [towardZero_intCast, Word.Fits]
    norm_cast
  · obtain ⟨hlow, hhigh⟩ := abs_le.1 hsmall
    have hmem := towardZero_mem (a := -2 ^ 53) (b := 2 ^ 53) (by exact_mod_cast hlow)
      (by exact_mod_cast hhigh)
    rw [Word.Fits, Word.half]
    exact iff_of_true (by omega) ⟨by push_cast; linarith, by push_cast; linarith⟩

end RuleSieve.Binary64

namespace RuleSieve.Predicate

open Binary64 (number? towardZero truncate?_eq fits_towardZero_iff)

/-! ## The function `int` -/

theorem eval_call_int {scope : Scope} {arg : Term} {v : Value} (h : arg.eval scope = .ok v) :
    (Term.call "int" [arg]).eval scope = toInt v := by
  rw [Term.eval, evalArgs, h]
  rfl

/-- `int` gives the nearest integer that has room to the number without its fraction. -/
theorem toInt_float {x : Float} {q : ℚ} (h : number? x = some q) :
    toInt (.float x) = .ok (.int (Word.clamp (towardZero q))) := by
  rw [toInt, truncate?_eq h]

theorem toInt_clamp {n : Int} (h : Word.Fits n) : (Word.clamp n).toInt = n := by
  rw [Word.clamp_of_fits h]
  exact Int64.toInt_ofInt_of_le h.1 h.2

/-- `int` gives for a float that denotes `q` no integer but `q` without its fraction, and is an error
    where that has no room. -/
structure InventsNone (x : Float) (q : ℚ) : Prop where
  exact : ∀ (scope : Scope) (arg : Term) (n : Int64), arg.eval scope = .ok (.float x) →
    (Term.call "int" [arg]).eval scope = .ok (.int n) → n.toInt = towardZero q
  refused : ¬ Word.Fits (towardZero q) → ∀ (scope : Scope) (arg : Term),
    arg.eval scope = .ok (.float x) → ∃ e, (Term.call "int" [arg]).eval scope = .error e

/-- `int` invents no integer for a finite float just if the number without its fraction has room, which
    is so from the least integer on and below its negation.  In every case it gives the nearest integer
    that has room. -/
theorem inventsNone_iff {x : Float} (hfinite : Binary64.isFinite x = true) :
    ∃ q, number? x = some q ∧
      (InventsNone x q ↔ Word.Fits (towardZero q)) ∧
      (Word.Fits (towardZero q) ↔ -(Word.half : ℚ) ≤ q ∧ q < Word.half) ∧
      ∀ (scope : Scope) (arg : Term), arg.eval scope = .ok (.float x) →
        (Term.call "int" [arg]).eval scope = .ok (.int (Word.clamp (towardZero q))) := by
  obtain ⟨mantissa, exponent, hexact, -⟩ := Binary64.exact_of_isFinite hfinite
  obtain ⟨q, hq⟩ : ∃ q, number? x = some q := by
    rw [number?, hexact]
    exact ⟨_, rfl⟩
  have heval (scope : Scope) (arg : Term) (harg : arg.eval scope = .ok (.float x)) :
      (Term.call "int" [arg]).eval scope = .ok (.int (Word.clamp (towardZero q))) :=
    (eval_call_int harg).trans (toInt_float hq)
  refine ⟨q, hq, ⟨fun hnone => ?_, fun hfits => ⟨?_, fun hnot => absurd hfits hnot⟩⟩,
    fits_towardZero_iff hfinite hq, heval⟩
  · -- the integer that is given always has room
    rw [← hnone.exact [] (.literal (.float x)) _ (Term.eval.eq_1 ..) (heval _ _ (Term.eval.eq_1 ..))]
    exact Word.fits_toInt _
  · intro scope arg n harg hn
    rw [heval scope arg harg] at hn
    cases hn
    exact toInt_clamp hfits

/-- Two and a half below zero becomes minus two. -/
theorem inventsNone_iff_fraction :
    Binary64.isFinite (Float.ofBits 0xC004000000000000) = true ∧
    InventsNone (Float.ofBits 0xC004000000000000) (-5 / 2) ∧
    (Term.call "int" [.literal (.float (Float.ofBits 0xC004000000000000))]).eval [] =
      .ok (.int (-2)) := by
  have hfinite : Binary64.isFinite (Float.ofBits 0xC004000000000000) = true := by decide
  have hnumber : number? (Float.ofBits 0xC004000000000000) = some (-5 / 2) := by
    show some (-((0x14000000000000 : Nat) * 2 ^ (-51 : Int)) : ℚ) = _
    norm_num
  obtain ⟨q, hq, hiff, -, heval⟩ := inventsNone_iff hfinite
  obtain rfl : q = -5 / 2 := Option.some.inj (hq.symm.trans hnumber)
  have hcut : towardZero (-5 / 2) = -2 := by
    rw [towardZero, if_pos (by norm_num), Int.ceil_eq_iff]
    norm_num
  refine ⟨hfinite, hiff.2 (by rw [hcut]; decide), ?_⟩
  rw [heval _ _ (Term.eval.eq_1 ..), hcut]
  rfl

/-- The negation of the least integer becomes the largest one, which is less. -/
theorem not_inventsNone_half :
    (Term.call "int" [.literal (.float (Float.ofBits 0x43E0000000000000))]).eval [] =
      .ok (.int 9223372036854775807) ∧
    number? (Float.ofBits 0x43E0000000000000) = some 9223372036854775808 ∧
    ¬ InventsNone (Float.ofBits 0x43E0000000000000) 9223372036854775808 := by
  have hnumber : number? (Float.ofBits 0x43E0000000000000) = some 9223372036854775808 := by
    show some ((0x10000000000000 : Nat) * 2 ^ (11 : Int) : ℚ) = _
    norm_num
  have hcut : towardZero 9223372036854775808 = 9223372036854775808 := by decide
  have heval : (Term.call "int" [.literal (.float (Float.ofBits 0x43E0000000000000))]).eval [] =
      .ok (.int 9223372036854775807) := by
    rw [eval_call_int (Term.eval.eq_1 ..), toInt_float hnumber, hcut]
    rfl
  refine ⟨heval, hnumber, fun hnone => ?_⟩
  have hexact := hnone.exact [] _ _ (Term.eval.eq_1 ..) heval
  rw [hcut] at hexact
  exact absurd hexact (by decide)

end RuleSieve.Predicate
