/-
  Products and sums of floats that come from natural numbers.

  An operation on floats takes its operands apart, finds the exact result as a mantissa and an exponent,
  and rounds it once.  The bits that the rounding drops are kept in two flags (`roundedMantissa_shift`),
  which is enough to round to the nearest; so what is packed is the float nearest to the exact result
  (`packed_round`), and a product or a sum of floats is the float nearest to the product or sum of what
  they denote (`nearest_mul`, `nearest_add`).
-/
import Mathlib.Data.Rat.Floor
import Mathlib.Tactic.Linarith
import RuleSieve.Proofs.Rounding

namespace RuleSieve.Binary64

open Float.Model (Format UnpackedFloat)
open Float.Model.UnpackedFloat

/-! ## Powers of two -/

/-- Bits that are added at the low end do not change which bit is the highest. -/
theorem log2_mul_twoTo_add {n k d : Nat} (hn : n ≠ 0) (hd : d < twoTo k) :
    (n * twoTo k + d).log2 = n.log2 + k := by
  have hlow : 2 ^ n.log2 * twoTo k ≤ n * twoTo k := Nat.mul_le_mul_right _ (Nat.log2_self_le hn)
  have hhigh : (n + 1) * twoTo k ≤ 2 ^ (n.log2 + 1) * twoTo k :=
    Nat.mul_le_mul_right _ Nat.lt_log2_self
  have hpos : 0 < n * twoTo k := Nat.mul_pos (Nat.pos_of_ne_zero hn) (twoTo_pos k)
  rw [Nat.succ_mul] at hhigh
  refine (Nat.log2_eq_iff (by omega)).2 ⟨?_, ?_⟩
  · rw [Nat.pow_add]
    exact Nat.le_add_right_of_le hlow
  · rw [Nat.add_right_comm, Nat.pow_add]
    exact Nat.lt_of_lt_of_le (Nat.add_lt_add_left hd _) hhigh

theorem log2_mul_twoTo {n : Nat} (hn : n ≠ 0) (k : Nat) : (n * twoTo k).log2 = n.log2 + k :=
  log2_mul_twoTo_add hn (twoTo_pos k)

/-! ## Mantissas that are shifted -/

open ExtendedMantissa in
/-- Of the bits that are dropped, the first one and whether there is another one are kept. -/
theorem shift_succ (m s : Nat) :
    ofMantissaAndAccuracy m .exact >>> (s + 1) =
      ⟨m / 2 ^ (s + 1), m / 2 ^ s % 2 != 0, m % 2 ^ s != 0⟩ := by
  -- a shift by one more moves the first dropped bit among the rest
  induction s with
  | zero =>
    show shiftRightOne ⟨m, false, false⟩ = _
    simp [shiftRightOne, Nat.mod_one]
  | succ s ih =>
    show shiftRightOne (ofMantissaAndAccuracy m .exact >>> (s + 1)) = _
    rw [ih, shiftRightOne]
    have hdiv : m / 2 ^ (s + 1) / 2 = m / 2 ^ (s + 1 + 1) := by
      rw [Nat.div_div_eq_div_mul, ← Nat.pow_succ]
    have hrest : (m / 2 ^ s % 2 != 0 || m % 2 ^ s != 0) = (m % 2 ^ (s + 1) != 0) := by
      rw [Nat.mod_pow_succ]
      have hpos : 0 < 2 ^ s := Nat.two_pow_pos s
      rcases Nat.mod_two_eq_zero_or_one (m / 2 ^ s) with h | h
      · simp [h]
      · simp [h]
    rw [hdiv, hrest]

open ExtendedMantissa in
/-- A mantissa is rounded to the nearest one that has some bits less. -/
theorem roundedMantissa_shift (m s : Nat) :
    (ofMantissaAndAccuracy m .exact >>> s).roundedMantissa = divNearest m (twoTo s) := by
  cases s with
  | zero => exact (divNearest_one m).symm
  | succ s =>
    have hrest : m % 2 ^ (s + 1) = m % 2 ^ s + 2 ^ s * (m / 2 ^ s % 2) := Nat.mod_pow_succ
    have hlt := Nat.mod_lt m (Nat.two_pow_pos s)
    have hpow : 2 ^ (s + 1) = 2 * 2 ^ s := Nat.pow_succ'
    have htwo : twoTo (s + 1) = 2 ^ (s + 1) := rfl
    rw [shift_succ, htwo, divNearest]
    rcases Nat.mod_two_eq_zero_or_one (m / 2 ^ s) with hbit | hbit <;> rw [hbit] at hrest ⊢
    · rw [if_pos (by omega)]
      cases m % 2 ^ s != 0 <;> rfl
    · rw [if_neg (by omega)]
      by_cases hzero : m % 2 ^ s = 0
      · rw [if_neg (by omega), hzero]
        rfl
      · rw [if_pos (by omega), bne_iff_ne.2 hzero]
        rfl

/-! ## Rounding to 53 bits -/

/-- A mantissa of 53 bits or more is rounded to 53 bits, unless it is too small for that many. -/
theorem shiftToTargetExponent_eq {m : Nat} {e : Int} (hm : 52 ≤ m.log2) (he : -1022 ≤ m.log2 + e) :
    shiftToTargetExponent Format.binary64 m e .exact =
      (ExtendedMantissa.ofMantissaAndAccuracy m .exact >>> (m.log2 - 52), e + (m.log2 - 52 : Nat)) := by
  have htarget : Format.binary64.targetExponent (Float.Model.totalExponent m e) =
      e + (m.log2 - 52 : Nat) := by
    show max ((m.log2 : Int) + 1 + e - 53) (-1074) = e + (m.log2 - 52 : Nat)
    omega
  have hshift : (e + (m.log2 - 52 : Nat) - e : Int).toNat = m.log2 - 52 := by omega
  rw [shiftToTargetExponent, htarget, shiftToExponent, hshift]

/-- The mantissa of a number of 53 bits or more: what does not fit is rounded away. -/
theorem mantissa_of_le_log2 {n : Nat} (h : 52 ≤ n.log2) :
    mantissa n = divNearest n (twoTo (n.log2 - 52)) := by
  rw [mantissa, Nat.sub_eq_zero_of_le h, show twoTo 0 = 1 from rfl, Nat.mul_one]
  rfl

/-- The rounded mantissa is shifted once more, for it can be a power of two that has a bit too many. -/
theorem roundWithAccuracy_of_shift (sign : Sign) {m : Nat} {e exponent : Int}
    {extended : ExtendedMantissa} (hm : 52 ≤ m.log2) (he : -1022 ≤ m.log2 + e)
    (hshift : shiftToTargetExponent Format.binary64 (mantissa m) (e + (m.log2 - 52 : Nat)) .exact =
      (extended, exponent)) (hpos : 0 < extended.mantissa) :
    roundWithAccuracy Format.binary64 sign m e .exact =
      .finite sign extended.mantissa exponent hpos := by
  unfold roundWithAccuracy
  rw [shiftToTargetExponent_eq hm he]
  dsimp only
  rw [roundedMantissa_shift, ← mantissa_of_le_log2 hm, hshift]
  exact dif_neg hpos.ne'

/-- What is rounded has a mantissa of 53 bits, and the bits of the rounded mantissa. -/
theorem roundWithAccuracy_eq (sign : Sign) {m : Nat} {e : Int} (hm : 52 ≤ m.log2)
    (he : -1022 ≤ m.log2 + e) :
    ∃ mantissa' exponent, ∃ hpos : 0 < mantissa',
      roundWithAccuracy Format.binary64 sign m e .exact = .finite sign mantissa' exponent hpos ∧
        mantissa'.log2 = 52 ∧ -1074 ≤ exponent ∧
        (exponent + 1074).toNat * impliedBit + mantissa' =
          (m.log2 + e + 1022).toNat * impliedBit + mantissa m := by
  have hne : m ≠ 0 := by
    rintro rfl
    exact absurd hm (by decide)
  have hpos : 0 < impliedBit := by decide
  obtain ⟨hlow, hhigh⟩ := mantissa_bounds hne
  rcases Nat.lt_or_eq_of_le hhigh with hlt | heq
  · have hlog : (mantissa m).log2 = 52 := (Nat.log2_eq_iff (by omega)).2 ⟨hlow, hlt⟩
    have hshift := shiftToTargetExponent_eq (m := mantissa m) (e := e + (m.log2 - 52 : Nat))
      (by omega) (by omega)
    rw [hlog] at hshift
    refine ⟨mantissa m, _, Nat.lt_of_lt_of_le hpos hlow,
      roundWithAccuracy_of_shift sign hm he hshift _, hlog, by omega, ?_⟩
    have hexponent : e + (m.log2 - 52 : Nat) + (52 - 52 : Nat) + 1074 = m.log2 + e + 1022 := by omega
    rw [hexponent]
  · -- rounding up has carried into a 54th bit: the mantissa is halved and the exponent goes up by one
    have hlog : (2 * impliedBit).log2 = 53 := by decide
    have hshift := shiftToTargetExponent_eq (m := 2 * impliedBit) (e := e + (m.log2 - 52 : Nat))
      (by omega) (by omega)
    rw [hlog, ← heq] at hshift
    have hhalf : (ExtendedMantissa.ofMantissaAndAccuracy (mantissa m) .exact >>> (53 - 52)).mantissa =
        impliedBit := by
      rw [heq]
      rfl
    refine ⟨_, _, by rw [hhalf]; exact hpos,
      roundWithAccuracy_of_shift sign hm he hshift _, by rw [hhalf]; decide, by omega, ?_⟩
    have hexponent : (e + (m.log2 - 52 : Nat) + (53 - 52 : Nat) + 1074).toNat =
        (m.log2 + e + 1022).toNat + 1 := by omega
    rw [hhalf, hexponent, heq]
    ring

/-! ## Packing -/

/-- A float is known by its bits. -/
theorem eq_of_toBits {x y : Float} (h : x.toBits.toNat = y.toBits.toNat) : x = y := by
  obtain ⟨⟨x, hx⟩⟩ := x
  obtain ⟨⟨y, hy⟩⟩ := y
  obtain rfl : x = y := UInt64.toNat_inj.1 h
  rfl

/-- The float that is packed of a result. -/
def packed (f : UnpackedFloat) : Float := Float.ofModel (Float.Model.pack f)

/-- The sign of what is below zero, or of what is not. -/
def signOf (negative : Bool) : Sign := if negative then .negative else .positive

/-- The bits of a sign, an exponent and a mantissa, as one number. -/
theorem toNat_packComponents (negative : Bool) (exponent : BitVec 11) (mantissa : BitVec 52) :
    (packComponents Format.binary64 (signOf negative) exponent mantissa).toNat =
      if negative then Word.half + (exponent.toNat * impliedBit + mantissa.toNat)
      else exponent.toNat * impliedBit + mantissa.toNat := by
  have hmantissa := mantissa.isLt
  have hexponent := exponent.isLt
  have happend : (packComponents Format.binary64 (signOf negative) exponent mantissa).toNat =
      ((signOf negative).toBitVec.toNat <<< 11 + exponent.toNat) <<< 52 + mantissa.toNat := by
    show ((signOf negative).toBitVec ++ exponent ++ mantissa).toNat = _
    rw [BitVec.toNat_append, BitVec.toNat_append, ← Nat.shiftLeft_add_eq_or_of_lt hexponent,
      ← Nat.shiftLeft_add_eq_or_of_lt hmantissa]
  rw [happend, Nat.shiftLeft_eq, Nat.shiftLeft_eq, Word.half, impliedBit]
  cases negative
  · show (0 * 2 ^ 11 + _) * 2 ^ 52 + _ = _
    rw [if_neg Bool.false_ne_true]
    omega
  · show (1 * 2 ^ 11 + _) * 2 ^ 52 + _ = _
    rw [if_pos rfl]
    omega

theorem toBits_packed (f : UnpackedFloat) :
    (packed f).toBits.toNat = (pack Format.binary64 f).toNat := rfl

/-- A packed zero is the float of magnitude zero. -/
theorem packed_zero (negative : Bool) : packed (.zero (signOf negative)) = ofMagnitude negative 0 := by
  cases negative <;> exact eq_of_toBits rfl

/-- A packed infinity is the float of infinite magnitude. -/
theorem packed_infinity (negative : Bool) :
    packed (.infinity (signOf negative)) = ofMagnitude negative infiniteMagnitude := by
  cases negative <;> exact eq_of_toBits rfl

/-- A mantissa of 53 bits is packed with the bits of its exponent, or as an infinity. -/
theorem packed_finite (negative : Bool) {mantissa : Nat} {exponent : Int} (hpos : 0 < mantissa)
    (hlog : mantissa.log2 = 52) (hexponent : -1074 ≤ exponent) :
    packed (.finite (signOf negative) mantissa exponent hpos) =
      ofMagnitude negative
        (min ((exponent + 1074).toNat * impliedBit + mantissa) infiniteMagnitude) := by
  obtain ⟨hlow, hhigh⟩ := (Nat.log2_eq_iff hpos.ne').1 hlog
  refine eq_of_toBits ?_
  rw [toBits_ofMagnitude (Nat.min_le_right _ _), toBits_packed, pack_finite]
  by_cases hmax : 2048 ≤ (exponent + 1023 + 52).toNat + 1
  · have hinfinite : infiniteMagnitude ≤ (exponent + 1074).toNat * impliedBit + mantissa := by
      rw [infiniteMagnitude, impliedBit]
      omega
    rw [if_pos hmax, Nat.min_eq_right hinfinite]
    exact toNat_packComponents negative (-1#11) 0#52
  · have hfinite : (exponent + 1074).toNat * impliedBit + mantissa ≤ infiniteMagnitude := by
      rw [infiniteMagnitude, impliedBit]
      omega
    have hbits : (exponent + 1023 + 52).toNat % 2 ^ 11 * impliedBit + mantissa % 2 ^ 52 =
        (exponent + 1074).toNat * impliedBit + mantissa := by
      rw [impliedBit]
      omega
    rw [if_neg hmax, if_pos (by omega), Nat.min_eq_left hfinite, toNat_packComponents,
      BitVec.toNat_ofNat, BitVec.toNat_ofNat, hbits]

/-! ## Exact results that are rounded -/

/-- Powers of two make no difference to the mantissa. -/
theorem mantissa_mul_twoTo {n : Nat} (hn : n ≠ 0) (k : Nat) : mantissa (n * twoTo k) = mantissa n := by
  rw [mantissa, mantissa, spacing, spacing, log2_mul_twoTo hn]
  refine divNearest_congr (twoTo_pos _) (twoTo_pos _) ?_
  rw [Nat.mul_assoc, Nat.mul_assoc, Nat.mul_assoc, ← twoTo_add, ← twoTo_add, ← twoTo_add]
  exact congrArg (n * twoTo ·) (by omega)

/-- Powers of two make no difference to the rounding. -/
theorem roundNat_mul_twoTo (n k : Nat) : roundNat (n * twoTo k) = roundNat n * twoTo k := by
  rcases eq_or_ne n 0 with rfl | hn
  · rw [Nat.zero_mul, show roundNat 0 = 0 from rfl, Nat.zero_mul]
  have hshifted := roundNat_mul (n * twoTo k)
  rw [log2_mul_twoTo hn, mantissa_mul_twoTo hn] at hshifted
  refine Nat.eq_of_mul_eq_mul_right (twoTo_pos (52 - (n.log2 + k) + (52 - n.log2))) ?_
  calc roundNat (n * twoTo k) * twoTo (52 - (n.log2 + k) + (52 - n.log2))
      = roundNat (n * twoTo k) * twoTo (52 - (n.log2 + k)) * twoTo (52 - n.log2) := by
        rw [twoTo_add, Nat.mul_assoc]
    _ = mantissa n * twoTo (n.log2 + k - 52 + (52 - n.log2)) := by
        rw [hshifted, twoTo_add, Nat.mul_assoc]
    _ = mantissa n * twoTo (n.log2 - 52 + (k + (52 - (n.log2 + k)))) :=
        congrArg (mantissa n * twoTo ·) (by omega)
    _ = roundNat n * twoTo (52 - n.log2) * (twoTo k * twoTo (52 - (n.log2 + k))) := by
        rw [roundNat_mul, twoTo_add, twoTo_add, Nat.mul_assoc]
    _ = roundNat n * twoTo k * twoTo (52 - (n.log2 + k) + (52 - n.log2)) := by
        rw [twoTo_add]
        ring

/-- What is rounded stays as it is when it is rounded again. -/
theorem roundNat_roundNat (n : Nat) : roundNat (roundNat n) = roundNat n := by
  rcases eq_or_ne n 0 with rfl | hn
  · rfl
  refine Nat.eq_of_mul_eq_mul_right (twoTo_pos (52 - n.log2)) ?_
  rw [← roundNat_mul_twoTo, roundNat_mul, roundNat_mul_twoTo,
    roundNat_of_le (mantissa_bounds hn).2]

/-- The bits order rounded integers as the integers are ordered. -/
theorem bitsOf_le_iff {m n : Nat} : bitsOf m ≤ bitsOf n ↔ roundNat m ≤ roundNat n := by
  rw [← Nat.not_lt, ← Nat.not_lt, bitsOf_lt_iff]

/-- Rounding twice is rounding once. -/
theorem bitsOf_roundNat (n : Nat) : bitsOf (roundNat n) = bitsOf n :=
  Nat.le_antisymm (bitsOf_le_iff.2 (roundNat_roundNat n).le)
    (bitsOf_le_iff.2 (roundNat_roundNat n).ge)

/-- A mantissa and an exponent denote the natural number. -/
def Denotes (mantissa : Nat) (exponent : Int) (v : Nat) : Prop := (mantissa : ℚ) * 2 ^ exponent = v

variable {m v : Nat} {e : Int}

/-- A mantissa is a multiple of what it denotes, or the other way round, by a power of two. -/
theorem Denotes.cases (h : Denotes m e v) : v = m * twoTo e.toNat ∧ 0 ≤ e ∨
    m = v * twoTo (-e).toNat ∧ e ≤ 0 := by
  rcases Int.le_total 0 e with hle | hle
  · obtain ⟨k, rfl⟩ := Int.eq_ofNat_of_zero_le hle
    refine .inl ⟨?_, hle⟩
    rw [Denotes, zpow_natCast] at h
    exact_mod_cast h.symm
  · obtain ⟨k, hk⟩ := Int.eq_ofNat_of_zero_le (Int.neg_nonneg_of_nonpos hle)
    obtain rfl : e = -(k : Int) := by omega
    refine .inr ⟨?_, hle⟩
    rw [Denotes, zpow_neg, zpow_natCast, ← div_eq_mul_inv, div_eq_iff (pow_ne_zero k two_ne_zero)] at h
    rw [Int.neg_neg, Int.toNat_natCast]
    exact_mod_cast h

/-- If a mantissa and a number are the same after both are scaled by powers of two, the exponent is
    the difference of the powers. -/
theorem denotes_of_mul {k j : Nat} (h : m * twoTo k = v * twoTo j) : Denotes m ((k : Int) - j) v := by
  have hcast : (m : ℚ) * 2 ^ k = v * 2 ^ j := by exact_mod_cast h
  rw [Denotes, zpow_sub₀ two_ne_zero, zpow_natCast, zpow_natCast, ← mul_div_assoc, hcast,
    mul_div_cancel_right₀ _ (pow_ne_zero j two_ne_zero)]

theorem Denotes.ne_zero (h : Denotes m e v) (hm : m ≠ 0) : v ≠ 0 := by
  rintro rfl
  rcases h.cases with ⟨heq, -⟩ | ⟨heq, -⟩
  · exact Nat.mul_ne_zero hm (twoTo_pos _).ne' heq.symm
  · exact hm (by rw [heq, Nat.zero_mul])

/-- What is denoted has as many bits before the point as the exponent says, and the same mantissa. -/
theorem Denotes.log2_mantissa (h : Denotes m e v) (hm : m ≠ 0) :
    (v.log2 : Int) = m.log2 + e ∧ mantissa v = mantissa m := by
  have hv := h.ne_zero hm
  rcases h.cases with ⟨heq, hle⟩ | ⟨heq, hle⟩
  · rw [heq, log2_mul_twoTo hm, mantissa_mul_twoTo hm]
    exact ⟨by omega, rfl⟩
  · rw [heq, log2_mul_twoTo hv, mantissa_mul_twoTo hv]
    exact ⟨by omega, rfl⟩

/-- Mantissas are multiplied and exponents added. -/
theorem Denotes.mul {m' v' : Nat} {e' : Int} (h : Denotes m e v) (h' : Denotes m' e' v') :
    Denotes (m * m') (e + e') (v * v') := by
  rw [Denotes, Nat.cast_mul, Nat.cast_mul, ← h, ← h', zpow_add₀ two_ne_zero]
  ring

/-- Mantissas of the same exponent are added. -/
theorem Denotes.add {m' v' : Nat} (h : Denotes m e v) (h' : Denotes m' e v') :
    Denotes (m + m') e (v + v') := by
  rw [Denotes, Nat.cast_add, Nat.cast_add, ← h, ← h', add_mul]

/-- A mantissa with more bits, and the exponent lower by as many. -/
theorem Denotes.shiftLeft (h : Denotes m e v) (k : Nat) : Denotes (m <<< k) (e - k) v := by
  rw [Denotes, Nat.shiftLeft_eq, Nat.cast_mul, Nat.cast_pow, Nat.cast_ofNat, mul_assoc,
    ← zpow_natCast, ← zpow_add₀ two_ne_zero, show (k : Int) + (e - k) = e by omega, h]

/-- An exact result is rounded to the nearest float. -/
theorem packed_roundWithAccuracy (negative : Bool) (hm : 52 ≤ m.log2) (h : Denotes m e v) :
    packed (roundWithAccuracy Format.binary64 (signOf negative) m e .exact) = nearest negative v := by
  have hne : m ≠ 0 := by
    rintro rfl
    exact absurd hm (by decide)
  obtain ⟨hlog, hmantissa⟩ := h.log2_mantissa hne
  obtain ⟨mantissa', exponent, hpos, heq, hlog', hexponent, hbits⟩ :=
    roundWithAccuracy_eq (signOf negative) hm (e := e) (by omega)
  have hsum : (m.log2 + e + 1022).toNat = v.log2 + 1022 := by omega
  rw [heq, packed_finite negative hpos hlog' hexponent, hbits, hsum, ← hmantissa, nearest, bitsOf,
    if_neg (h.ne_zero hne)]

/-- Rounding what a mantissa and an exponent denote, and packing it, gives the nearest float. -/
theorem packed_round (negative : Bool) (hm : m ≠ 0) (h : Denotes m e v) :
    packed (UnpackedFloat.round Format.binary64 (signOf negative) m e) = nearest negative v := by
  obtain ⟨hlog, -⟩ := h.log2_mantissa hm
  have htarget : Format.binary64.targetExponent (Float.Model.totalExponent m e) =
      max ((m.log2 : Int) + 1 + e - 53) (-1074) := rfl
  have hshift : (e - max ((m.log2 : Int) + 1 + e - 53) (-1074)).toNat = 52 - m.log2 := by omega
  rw [UnpackedFloat.round, htarget, decreaseExponent, hshift]
  refine packed_roundWithAccuracy negative ?_ (h.shiftLeft _)
  rw [Nat.shiftLeft_eq, show 2 ^ (52 - m.log2) = twoTo (52 - m.log2) from rfl, log2_mul_twoTo hm]
  omega

/-! ## Operands -/

variable {n : Nat}

/-- What a float is taken apart into. -/
def unpacked (x : Float) : UnpackedFloat := x.toModel.unpack

/-- The exponent field of a positive float. -/
theorem toNat_unpackExponent {x : Float} (h : x.toBits.toNat < Word.half) :
    (@unpackExponent Format.binary64 x.toBits.toBitVec).toNat = x.toBits.toNat / impliedBit := by
  have hfield : (@unpackExponent Format.binary64 x.toBits.toBitVec).toNat =
      x.toBits.toNat >>> 52 % 2 ^ 11 := rfl
  rw [Word.half] at h
  rw [hfield, Nat.shiftRight_eq_div_pow, impliedBit]
  omega

/-- The exponent field of a finite float is not the greatest one. -/
theorem unpackExponent_ne {x : Float} (h : x.toBits.toNat < infiniteMagnitude) :
    @unpackExponent Format.binary64 x.toBits.toBitVec ≠ -1#11 := by
  intro hmax
  have hfield := toNat_unpackExponent (Nat.lt_trans h (by decide))
  have hvalue : (-1#11).toNat = 2047 := rfl
  rw [hmax, hvalue, impliedBit] at hfield
  rw [infiniteMagnitude, impliedBit] at h
  omega

theorem finite_congr {s s' : Sign} {m m' : Nat} {e e' : Int} {hm : 0 < m} {hm' : 0 < m'}
    (hsign : s = s') (hmantissa : m = m') (hexponent : e = e') :
    UnpackedFloat.finite s m e hm = .finite s' m' e' hm' := by
  subst hsign hmantissa hexponent
  rfl

/-- A positive number of 53 bits is taken apart. -/
theorem unpacked_eq {x : Float} (hlow : impliedBit ≤ x.toBits.toNat)
    (hhigh : x.toBits.toNat < infiniteMagnitude) :
    ∃ hpos, unpacked x = .finite .positive (impliedBit + x.toBits.toNat % impliedBit)
      ((x.toBits.toNat / impliedBit : Nat) - 1075) hpos := by
  have hhalf : x.toBits.toNat < Word.half := Nat.lt_trans hhigh (by decide)
  have hexponent := toNat_unpackExponent hhalf
  have hmax := unpackExponent_ne hhigh
  have hmantissa : (1#1 ++ @unpackMantissa Format.binary64 x.toBits.toBitVec).toNat =
      impliedBit + x.toBits.toNat % impliedBit := toNat_implied _
  have hsign : @unpackSign Format.binary64 x.toBits.toBitVec = 0#1 := by
    refine BitVec.eq_of_toNat_eq ?_
    show x.toBits.toNat >>> 63 % 2 ^ 1 = 0
    rw [Word.half] at hhalf
    rw [Nat.shiftRight_eq_div_pow]
    omega
  have hzero : @unpackExponent Format.binary64 x.toBits.toBitVec ≠ 0#11 := by
    intro h
    have hvalue : (0#11).toNat = 0 := rfl
    rw [h, hvalue] at hexponent
    exact (Nat.div_pos hlow (by decide)).ne hexponent
  have hpos : 0 < impliedBit + x.toBits.toNat % impliedBit := Nat.add_pos_left (by decide) _
  have hunpacked : unpacked x = .finite (.ofBitVec (@unpackSign Format.binary64 x.toBits.toBitVec))
      (1#1 ++ @unpackMantissa Format.binary64 x.toBits.toBitVec).toNat
      ((@unpackExponent Format.binary64 x.toBits.toBitVec).toNat - 1075) (hmantissa ▸ hpos) :=
    (if_neg hmax).trans (if_neg hzero)
  refine ⟨hpos, hunpacked.trans (finite_congr ?_ hmantissa ?_)⟩
  · rw [hsign]
    rfl
  · rw [hexponent]

/-- Taking a finite float apart and packing it again gives the float. -/
theorem packed_unpacked {x : Float} (h : x.toBits.toNat < infiniteMagnitude) :
    packed (unpacked x) = x := by
  refine eq_of_toBits ?_
  show (pack Format.binary64 (unpack Format.binary64 x.toBits.toBitVec)).toNat = x.toBits.toNat
  rw [pack_unpack (unpackExponent_ne h)]
  rfl

/-- The bits of the float nearest to a natural number, which stop at those of infinity. -/
theorem toBits_nearest (n : Nat) :
    (nearest false n).toBits.toNat = min (bitsOf n) infiniteMagnitude :=
  toBits_ofMagnitude (Nat.min_le_right _ _) false

theorem nearest_zero (negative : Bool) : nearest negative 0 = packed (.zero (signOf negative)) :=
  (packed_zero negative).symm

/-- What is too large for a float is packed as an infinity. -/
theorem nearest_of_le {negative : Bool} (h : infiniteMagnitude ≤ bitsOf n) :
    nearest negative n = packed (.infinity (signOf negative)) := by
  rw [nearest, Nat.min_eq_right h, packed_infinity]

/-- A number and what it is rounded to have the same nearest float. -/
theorem nearest_roundNat (negative : Bool) (n : Nat) :
    nearest negative (roundNat n) = nearest negative n := by
  rw [nearest, bitsOf_roundNat, nearest]

/-- The float nearest to a natural number that is neither zero nor too large denotes the rounded
    number. -/
theorem unpacked_nearest (hn : n ≠ 0) (h : bitsOf n < infiniteMagnitude) :
    ∃ m e hpos, unpacked (nearest false n) = .finite .positive m e hpos ∧ m.log2 = 52 ∧
      -1074 ≤ e ∧ Denotes m e (roundNat n) := by
  have hbits : (nearest false n).toBits.toNat = bitsOf n := by
    rw [toBits_nearest, Nat.min_eq_left h.le]
  have hlow : impliedBit ≤ bitsOf n := by
    rw [bitsOf, if_neg hn]
    exact Nat.le_add_left_of_le (mantissa_bounds hn).1
  have hunpacked := unpacked_eq (by rwa [hbits]) (by rwa [hbits])
  rw [hbits] at hunpacked
  obtain ⟨hpos, hunpacked⟩ := hunpacked
  have hfield : 0 < bitsOf n / impliedBit := Nat.div_pos hlow (by decide)
  have hfraction : bitsOf n % impliedBit < impliedBit := Nat.mod_lt _ (by decide)
  have hlog : (impliedBit + bitsOf n % impliedBit).log2 = 52 := by
    rw [impliedBit] at hfraction ⊢
    exact (Nat.log2_eq_iff (by omega)).2 (by omega)
  refine ⟨_, _, hpos, hunpacked, hlog, by omega, ?_⟩
  have hscaled := scaled_bitsOf n
  rw [scaled, if_neg (Nat.not_lt.2 hlow)] at hscaled
  have hexponent : ((bitsOf n / impliedBit : Nat) : Int) - 1075 =
      (bitsOf n / impliedBit - 1 : Nat) - (1074 : Nat) := by omega
  rw [hexponent]
  exact denotes_of_mul hscaled

/-! ## Products and sums -/

/-- A product is that of the parts, packed. -/
theorem mul_eq (x y : Float) :
    x * y = packed (UnpackedFloat.mul Format.binary64 (unpacked x) (unpacked y)) := rfl

/-- A sum is that of the parts, packed. -/
theorem add_eq (x y : Float) :
    x + y = packed (UnpackedFloat.add Format.binary64 (unpacked x) (unpacked y)) := rfl

theorem neg_eq (x : Float) : -x = packed (UnpackedFloat.neg (unpacked x)) := rfl

theorem unpacked_zero : unpacked (nearest false 0) = .zero .positive := by
  rw [nearest_zero]
  rfl

/-- The float nearest to what is too large is taken apart into an infinity. -/
theorem unpacked_infinity (h : infiniteMagnitude ≤ bitsOf n) :
    unpacked (nearest false n) = .infinity .positive := by
  rw [nearest_of_le h]
  rfl

/-- A float that comes from a natural number is zero, infinite or a mantissa of 53 bits. -/
theorem unpacked_cases (n : Nat) :
    n = 0 ∧ unpacked (nearest false n) = .zero .positive ∨
    infiniteMagnitude ≤ bitsOf n ∧ unpacked (nearest false n) = .infinity .positive ∨
    ∃ m e hpos, unpacked (nearest false n) = .finite .positive m e hpos ∧ m.log2 = 52 ∧
      -1074 ≤ e ∧ Denotes m e (roundNat n) := by
  rcases eq_or_ne n 0 with rfl | hn
  · exact .inl ⟨rfl, unpacked_zero⟩
  rcases Nat.lt_or_ge (bitsOf n) infiniteMagnitude with hlt | hge
  · exact .inr (.inr (unpacked_nearest hn hlt))
  · exact .inr (.inl ⟨hge, unpacked_infinity hge⟩)

/-- What is larger than an infinite number is infinite. -/
theorem infinite_of_le {n' : Nat} (h : infiniteMagnitude ≤ bitsOf n) (hle : roundNat n ≤ n') :
    infiniteMagnitude ≤ bitsOf n' := by
  rw [← bitsOf_roundNat] at h
  exact Nat.le_trans h (bitsOf_le_iff.2 (roundNat_mono hle))

/-- The product of two floats is the float nearest to the product of what they denote. -/
theorem nearest_mul (a : Nat) {b : Nat} (hb : b ≠ 0) (hfinite : bitsOf b < infiniteMagnitude) :
    nearest false a * nearest false b = nearest false (roundNat a * roundNat b) := by
  obtain ⟨m', e', hpos', hunpacked', -, -, hdenotes'⟩ := unpacked_nearest hb hfinite
  have hrounded : 0 < roundNat b := Nat.pos_of_ne_zero (hdenotes'.ne_zero hpos'.ne')
  rw [mul_eq, hunpacked']
  rcases unpacked_cases a with ⟨rfl, hunpacked⟩ | ⟨hlarge, hunpacked⟩ |
    ⟨m, e, hpos, hunpacked, hlog, -, hdenotes⟩
  · rw [hunpacked, show roundNat 0 = 0 from rfl, Nat.zero_mul, nearest_zero]
    rfl
  · rw [hunpacked, nearest_of_le (infinite_of_le hlarge (Nat.le_mul_of_pos_right _ hrounded))]
    rfl
  · have hlow : 52 ≤ (m * m').log2 := by
      refine (Nat.le_log2 (Nat.mul_pos hpos hpos').ne').2 ?_
      exact Nat.le_trans ((Nat.log2_eq_iff hpos.ne').1 hlog).1 (Nat.le_mul_of_pos_right m hpos')
    rw [hunpacked]
    exact packed_roundWithAccuracy false hlow (hdenotes.mul hdenotes')

/-- Taking the float nearest to a natural number apart and packing it again gives the float. -/
theorem packed_unpacked_nearest (n : Nat) : packed (unpacked (nearest false n)) = nearest false n := by
  rcases Nat.lt_or_ge (bitsOf n) infiniteMagnitude with hlt | hge
  · exact packed_unpacked (by rwa [toBits_nearest, Nat.min_eq_left hlt.le])
  · rw [unpacked_infinity hge, nearest_of_le hge]
    rfl

/-- Normalizing a natural mantissa only rounds it. -/
theorem normalize_natCast {m : Nat} (hm : m ≠ 0) (e : Int) (sign : Sign) :
    UnpackedFloat.normalize Format.binary64 m e sign =
      UnpackedFloat.round Format.binary64 (signOf false) m e := by
  have hcompare : compare (m : Int) 0 = .gt := compare_gt_iff_gt.2 (by omega)
  rw [UnpackedFloat.normalize, hcompare]
  rfl

/-- Mantissas are added once they have the same exponent. -/
theorem packed_add {m m' v v' : Nat} {e e' : Int} (hpos : 0 < m) (hpos' : 0 < m')
    (h : Denotes m e v) (h' : Denotes m' e' v') :
    packed (UnpackedFloat.add Format.binary64 (.finite .positive m e hpos)
      (.finite .positive m' e' hpos')) = nearest false (v + v') := by
  have hdenotes := h.shiftLeft (e - min e e').toNat
  have hdenotes' := h'.shiftLeft (e' - min e e').toNat
  rw [show e - (e - min e e').toNat = min e e' by omega] at hdenotes
  rw [show e' - (e' - min e e').toNat = min e e' by omega] at hdenotes'
  have hne : m <<< (e - min e e').toNat + m' <<< (e' - min e e').toNat ≠ 0 := by
    rw [Nat.shiftLeft_eq]
    exact (Nat.add_pos_left (Nat.mul_pos hpos (twoTo_pos _)) _).ne'
  refine Eq.trans ?_ (packed_round false hne (hdenotes.add hdenotes'))
  rw [← normalize_natCast hne _ .positive]
  rfl

/-- The sum of two floats is the float nearest to the sum of what they denote. -/
theorem nearest_add (a b : Nat) :
    nearest false a + nearest false b = nearest false (roundNat a + roundNat b) := by
  rw [add_eq]
  rcases unpacked_cases a with ⟨rfl, hunpacked⟩ | ⟨hlarge, hunpacked⟩ |
    ⟨m, e, hpos, hunpacked, -, -, hdenotes⟩
  · rw [show roundNat 0 = 0 from rfl, Nat.zero_add, nearest_roundNat, hunpacked]
    -- a sum with zero is the other operand as it was taken apart, which is not rounded again
    refine Eq.trans ?_ (packed_unpacked_nearest b)
    rcases unpacked_cases b with ⟨rfl, hunpacked'⟩ | ⟨-, hunpacked'⟩ | ⟨_, _, _, hunpacked', -⟩ <;>
      rw [hunpacked'] <;> rfl
  · rw [nearest_of_le (infinite_of_le hlarge (Nat.le_add_right _ _)), hunpacked]
    rcases unpacked_cases b with ⟨rfl, hunpacked'⟩ | ⟨-, hunpacked'⟩ | ⟨_, _, _, hunpacked', -⟩ <;>
      rw [hunpacked'] <;> rfl
  · rcases unpacked_cases b with ⟨rfl, hunpacked'⟩ | ⟨hlarge', hunpacked'⟩ |
      ⟨m', e', hpos', hunpacked', -, -, hdenotes'⟩
    · rw [show roundNat 0 = 0 from rfl, Nat.add_zero, nearest_roundNat, hunpacked']
      refine Eq.trans ?_ (packed_unpacked_nearest a)
      rw [hunpacked]
      rfl
    · rw [nearest_of_le (infinite_of_le hlarge' (Nat.le_add_left _ _)), hunpacked, hunpacked']
      rfl
    · rw [hunpacked, hunpacked', packed_add hpos hpos' hdenotes hdenotes']

/-- The bits of a number and of its negation differ in the sign only. -/
theorem neg_nearest (n : Nat) : -nearest false n = nearest true n := by
  rw [neg_eq]
  rcases unpacked_cases n with ⟨rfl, hunpacked⟩ | ⟨hlarge, hunpacked⟩ |
    ⟨m, e, hpos, hunpacked, hlog, hexponent, -⟩
  · rw [hunpacked, nearest_zero]
    rfl
  · rw [hunpacked, nearest_of_le hlarge]
    rfl
  · have hbits := packed_unpacked_nearest n
    rw [hunpacked, show Sign.positive = signOf false from rfl, packed_finite false hpos hlog hexponent,
      nearest, ofMagnitude_inj (Nat.min_le_right _ _) (Nat.min_le_right _ _)] at hbits
    rw [hunpacked, nearest, ← hbits, ← packed_finite true hpos hlog hexponent]
    rfl

/-! ## Floats that are the same -/

/-- The least natural number that is too large for a float. -/
def overflow : Nat := twoTo 1024

/-- What a float denotes that is nearest to a natural number, infinity being the least number that is too
    large. -/
def capped (n : Nat) : Nat := min (roundNat n) overflow

/-- The bits reach infinity just if the rounded integer is too large. -/
theorem infinite_iff : infiniteMagnitude ≤ bitsOf n ↔ overflow ≤ roundNat n := by
  have hinfinite : scaled infiniteMagnitude = overflow * twoTo 1074 := by
    have h := scaled_eq 2046 impliedBit (Nat.le_refl _) (by omega)
    rw [show 2046 * impliedBit + impliedBit = infiniteMagnitude from rfl,
      show impliedBit = twoTo 52 from rfl, ← twoTo_add] at h
    rw [h, overflow, ← twoTo_add]
  rw [← scaled_strictMono.le_iff_le, hinfinite, scaled_bitsOf,
    Nat.mul_le_mul_right_iff (twoTo_pos 1074)]

theorem roundNat_twoTo (k : Nat) : roundNat (twoTo k) = twoTo k := by
  have h := roundNat_mul_twoTo 1 k
  rwa [Nat.one_mul, roundNat_of_le (n := 1) (by decide), Nat.one_mul] at h

/-- Rounding does not go below a power of two. -/
theorem twoTo_le_roundNat {k : Nat} (h : twoTo k ≤ n) : twoTo k ≤ roundNat n := by
  rw [← roundNat_twoTo k]
  exact roundNat_mono h

/-- The floats nearest to natural numbers are the same just if they denote the same number, or are both
    infinite. -/
theorem nearest_eq_iff {negative : Bool} {m : Nat} :
    nearest negative m = nearest negative n ↔ capped m = capped n := by
  have hm := infinite_iff (n := m)
  have hn := infinite_iff (n := n)
  have hlt := bitsOf_lt_iff (m := m) (n := n)
  have hgt := bitsOf_lt_iff (m := n) (n := m)
  rw [nearest, nearest, ofMagnitude_inj (Nat.min_le_right _ _) (Nat.min_le_right _ _), capped, capped]
  omega

end RuleSieve.Binary64
