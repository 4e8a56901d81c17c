/-
  The bits of a float.

  A float is kept as a sign, an exponent and a mantissa, and is put together again from them.  For bits
  that stand for a number, what comes back are the bits that were given (`Binary64.toBits_ofBits`).
-/
import Mathlib.Algebra.Group.Nat.Defs
import Mathlib.Data.Nat.Log
import RuleSieve.Number.Binary64

namespace RuleSieve.Binary64

open Float.Model (Format UnpackedFloat)
open Float.Model.UnpackedFloat

/-! ## Parts of a float -/

/-- The bits of a float are those of its sign, its exponent and its mantissa. -/
theorem packComponents_unpack (b : BitVec Format.binary64.numBits) :
    packComponents Format.binary64 (Sign.ofBitVec (unpackSign b)) (unpackExponent b)
      (unpackMantissa b) = b := by
  have hsign : (Sign.ofBitVec (unpackSign b)).toBitVec = unpackSign b := by
    generalize unpackSign b = sign
    revert sign
    decide
  have hhigh : b.extractLsb' 63 1 ++ b.extractLsb' 52 11 = b.extractLsb' 52 12 :=
    BitVec.extractLsb'_append_extractLsb'_eq_extractLsb' rfl
  have hall : b.extractLsb' 52 12 ++ b.extractLsb' 0 52 = b.extractLsb' 0 64 :=
    BitVec.extractLsb'_append_extractLsb'_eq_extractLsb' rfl
  rw [packComponents, hsign]
  show b.extractLsb' 63 1 ++ b.extractLsb' 52 11 ++ b.extractLsb' 0 52 = b
  rw [hhigh, hall]
  exact BitVec.extractLsb'_eq_self

variable {b : BitVec Format.binary64.numBits}

theorem packComponents_eq {exponent : BitVec 11} {mantissa : BitVec 52}
    (hexponent : exponent = unpackExponent b) (hmantissa : mantissa = unpackMantissa b) :
    packComponents Format.binary64 (Sign.ofBitVec (unpackSign b)) exponent mantissa = b := by
  rw [hexponent, hmantissa]
  exact packComponents_unpack b

/-- A mantissa with the bit that is implied above it. -/
theorem toNat_implied (mantissa : BitVec 52) : (1#1 ++ mantissa).toNat = 2 ^ 52 + mantissa.toNat := by
  rw [BitVec.toNat_append, Nat.shiftLeft_eq, Nat.or_comm]
  exact (Nat.or_two_pow_eq_add_of_lt mantissa.isLt).trans (Nat.add_comm _ _)

/-- A finite float is packed with the implied bit, or with the least exponent. -/
theorem pack_finite (sign : Sign) (mantissa : Nat) (exponent : Int) (hpos : 0 < mantissa) :
    pack Format.binary64 (.finite sign mantissa exponent hpos) =
      if 2048 ≤ (exponent + 1023 + 52).toNat + 1 then packedInfinity Format.binary64 sign
      else if mantissa.log2 + 1 = 53 then packComponents Format.binary64 sign
        (BitVec.ofNat 11 (exponent + 1023 + 52).toNat) (BitVec.ofNat 52 mantissa)
      else packComponents Format.binary64 sign 0#11 (BitVec.ofNat 52 mantissa) := rfl

theorem pack_normal (sign : Sign) {exponent : BitVec 11} (h : exponent ≠ -1#11)
    (mantissa : BitVec 52) (hpos : 0 < (1#1 ++ mantissa).toNat) :
    pack Format.binary64 (.finite sign (1#1 ++ mantissa).toNat (exponent.toNat - (1023 + 52)) hpos) =
      packComponents Format.binary64 sign exponent mantissa := by
  have hlt := mantissa.isLt
  have hexponent : exponent.toNat ≠ 2047 := fun hmax => h (BitVec.eq_of_toNat_eq hmax)
  have hlog : (1#1 ++ mantissa).toNat.log2 + 1 = 53 := by
    rw [Nat.succ_inj, toNat_implied, Nat.log2_eq_iff (by omega)]
    omega
  have hbiased : ((exponent.toNat : Int) - (1023 + 52) + 1023 + 52).toNat = exponent.toNat := by omega
  have hmax : ¬ 2048 ≤ exponent.toNat + 1 := by
    have := exponent.isLt
    omega
  have hmantissa : BitVec.ofNat 52 (1#1 ++ mantissa).toNat = mantissa := by
    refine BitVec.eq_of_toNat_eq ?_
    rw [toNat_implied, BitVec.toNat_ofNat, Nat.add_mod_left, Nat.mod_eq_of_lt hlt]
  rw [pack_finite, hbiased, if_neg hmax, if_pos hlog, BitVec.ofNat_toNat, BitVec.setWidth_eq,
    hmantissa]

theorem pack_subnormal (sign : Sign) {mantissa : BitVec 52} (hpos : 0 < mantissa.toNat)
    {exponent : Int} (hleast : exponent = -1074) :
    pack Format.binary64 (.finite sign mantissa.toNat exponent hpos) =
      packComponents Format.binary64 sign 0#11 mantissa := by
  have hlt := mantissa.isLt
  have hlog : ¬ mantissa.toNat.log2 + 1 = 53 := by
    intro hlog
    have := (Nat.log2_eq_iff hpos.ne').1 (Nat.succ_inj.1 hlog)
    omega
  rw [pack_finite, hleast, if_neg (by decide), if_neg hlog, BitVec.ofNat_toNat, BitVec.setWidth_eq]

/-- A number is put together again from its parts. -/
theorem pack_unpack (h : unpackExponent b ≠ -1#11) :
    pack Format.binary64 (unpack Format.binary64 b) = b := by
  unfold unpack
  dsimp only
  rw [if_neg h]
  by_cases hzero : unpackExponent b = 0#11
  · have hexponent : ((unpackExponent b).toNat : Int) -
        (Format.binary64.exponentBias + Format.binary64.mantissaBitsWithoutImplicit) + 1 =
          -1074 := by
      rw [hzero]
      rfl
    by_cases hmantissa : unpackMantissa b = 0#52
    · rw [if_pos hzero, dif_pos hmantissa]
      exact packComponents_eq hzero.symm hmantissa.symm
    · rw [if_pos hzero, dif_neg hmantissa]
      exact (pack_subnormal _ _ hexponent).trans (packComponents_eq hzero.symm rfl)
  · rw [if_neg hzero]
    exact (pack_normal _ h _ _).trans (packComponents_eq rfl rfl)

/-- The bits that stand for a number are the bits of that float. -/
theorem toBits_ofBits {u : UInt64} (h : u.toNat % Word.half < infiniteMagnitude) :
    (Float.ofBits u).toBits = u := by
  have hexponent : @unpackExponent Format.binary64 u.toBitVec ≠ -1#11 := by
    intro hmax
    have hfield : u.toNat >>> 52 % 2 ^ 11 = 2047 := congrArg BitVec.toNat hmax
    rw [Nat.shiftRight_eq_div_pow] at hfield
    rw [Word.half, infiniteMagnitude, impliedBit] at h
    omega
  show UInt64.ofBitVec (pack Format.binary64 (unpack Format.binary64 u.toBitVec)) = u
  rw [pack_unpack hexponent]

/-! ## A sign and a magnitude -/

/-- The float of a sign and the other bits. -/
def ofMagnitude (negative : Bool) (n : Nat) : Float :=
  Float.ofBits (UInt64.ofNat (if negative then Word.half + n else n))

/-- The bits of numbers and of infinities are kept. -/
theorem toBits_ofMagnitude {n : Nat} (h : n ≤ infiniteMagnitude) (negative : Bool) :
    (ofMagnitude negative n).toBits.toNat = if negative then Word.half + n else n := by
  rcases Nat.lt_or_eq_of_le h with hlt | rfl
  · have hhalf : n < Word.half := Nat.lt_trans hlt (by decide)
    have hroom : (if negative then Word.half + n else n) < 2 ^ 64 := by
      have htwo : Word.half + Word.half = 2 ^ 64 := rfl
      split <;> omega
    have hbits : (UInt64.ofNat (if negative then Word.half + n else n)).toNat =
        if negative then Word.half + n else n := UInt64.toNat_ofNat_of_lt' hroom
    have hmod : (if negative then Word.half + n else n) % Word.half = n := by
      split
      · rw [Nat.add_mod_left, Nat.mod_eq_of_lt hhalf]
      · exact Nat.mod_eq_of_lt hhalf
    rw [ofMagnitude, toBits_ofBits (by rwa [hbits, hmod]), hbits]
  · cases negative <;> rfl

/-- A sign and a magnitude, as they are read from the float with those bits. -/
theorem magnitude_ofMagnitude {n : Nat} (h : n ≤ infiniteMagnitude) (negative : Bool) :
    magnitude (ofMagnitude negative n) = n ∧ isNegative (ofMagnitude negative n) = negative := by
  have hlt : n < Word.half := Nat.lt_of_le_of_lt h (by decide)
  rw [magnitude, isNegative, toBits_ofMagnitude h]
  cases negative with
  | true => exact ⟨by rw [if_pos rfl, Nat.add_mod_left, Nat.mod_eq_of_lt hlt],
      decide_eq_true (Nat.le_add_right _ _)⟩
  | false => exact ⟨Nat.mod_eq_of_lt hlt, decide_eq_false (Nat.not_le.2 hlt)⟩

theorem ofMagnitude_inj {m n : Nat} (hm : m ≤ infiniteMagnitude) (hn : n ≤ infiniteMagnitude)
    {negative : Bool} : ofMagnitude negative m = ofMagnitude negative n ↔ m = n := by
  refine ⟨fun h => ?_, congrArg _⟩
  rw [← (magnitude_ofMagnitude hm negative).1, h, (magnitude_ofMagnitude hn negative).1]

end RuleSieve.Binary64
