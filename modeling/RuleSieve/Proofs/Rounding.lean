/-
  The float nearest to an integer.

  The bits of a float without the sign, read as a number, have the order of what the floats denote
  (`scaled_strictMono`).  An integer is rounded to 53 significant bits, and what it is rounded to is what
  the float denotes; no float denotes a nearer number (`scaled_nearest`).  So two floats that come from
  integers of 64 bits have the order of the rounded integers (`compare?_ofInt`).
-/
import Mathlib.Algebra.Order.Group.Int
import Mathlib.Data.Nat.Dist
import Mathlib.Order.Compare
import Mathlib.Tactic.Ring
import Mathlib.Tactic.SplitIfs
import RuleSieve.Proofs.FloatBits

namespace RuleSieve.Binary64

/-! ## Quotients rounded to the nearest -/

variable {n d : Nat}

/-- The nearest quotient is the whole one or the next, by what is left over. -/
theorem divNearest_cases (n d : Nat) :
    divNearest n d = n / d ∧ 2 * (n % d) ≤ d ∨ divNearest n d = n / d + 1 ∧ d ≤ 2 * (n % d) := by
  unfold divNearest
  dsimp only
  split
  · next h => exact .inl ⟨rfl, h.le⟩
  · next hlow =>
    split
    · next h => exact .inr ⟨rfl, h.le⟩
    · next hhigh =>
      rcases Nat.mod_two_eq_zero_or_one (n / d) with heven | hodd
      · exact .inl ⟨by rw [heven, Nat.add_zero], Nat.not_lt.1 hhigh⟩
      · exact .inr ⟨by rw [hodd], Nat.not_lt.1 hlow⟩

/-- The rounded quotient is off by a half at most. -/
theorem divNearest_near (n : Nat) (hd : 0 < d) :
    2 * (divNearest n d * d) ≤ 2 * n + d ∧ 2 * n ≤ 2 * (divNearest n d * d) + d := by
  have hdivmod := Nat.div_add_mod' n d
  have hmod := Nat.mod_lt n hd
  rcases divNearest_cases n d with ⟨h, hrest⟩ | ⟨h, hrest⟩
  · rw [h]
    omega
  · rw [h, Nat.succ_mul (n / d) d]
    omega

/-- The nearest quotient is at most one above the whole one. -/
theorem div_le_divNearest (n d : Nat) : n / d ≤ divNearest n d ∧ divNearest n d ≤ n / d + 1 := by
  rcases divNearest_cases n d with ⟨h, -⟩ | ⟨h, -⟩ <;> omega

/-- A larger number has no smaller quotient. -/
theorem divNearest_mono {m : Nat} (h : m ≤ n) (d : Nat) : divNearest m d ≤ divNearest n d := by
  rcases Nat.lt_or_eq_of_le (Nat.div_le_div_right (c := d) h) with hlt | heq
  · have hm := div_le_divNearest m d
    have hn := div_le_divNearest n d
    omega
  · -- the whole parts are the same, so the rests decide
    have hm := Nat.div_add_mod' m d
    have hn := Nat.div_add_mod' n d
    unfold divNearest
    dsimp only
    rw [heq] at hm ⊢
    split_ifs <;> omega

/-- A multiple is divided exactly. -/
theorem divNearest_mul (m : Nat) (hd : 0 < d) : divNearest (m * d) d = m := by
  unfold divNearest
  dsimp only
  rw [Nat.mul_mod_left, if_pos (by omega), Nat.mul_div_cancel m hd]

/-- Only the ratio counts. -/
theorem divNearest_mul_mul (n d : Nat) {k : Nat} (hk : 0 < k) :
    divNearest (n * k) (d * k) = divNearest n d := by
  have hlow : 2 * (n % d * k) < d * k ↔ 2 * (n % d) < d := by
    rw [← Nat.mul_assoc, Nat.mul_lt_mul_right hk]
  have hhigh : d * k < 2 * (n % d * k) ↔ d < 2 * (n % d) := by
    rw [← Nat.mul_assoc, Nat.mul_lt_mul_right hk]
  unfold divNearest
  dsimp only
  rw [Nat.mul_div_mul_right n d hk, Nat.mul_mod_mul_right]
  simp only [hlow, hhigh]

/-- Quotients of the same value are rounded alike. -/
theorem divNearest_congr {n' d' : Nat} (hd : 0 < d) (hd' : 0 < d') (h : n * d' = n' * d) :
    divNearest n d = divNearest n' d' := by
  rw [← divNearest_mul_mul n d hd', h, Nat.mul_comm d d', divNearest_mul_mul n' d' hd]

/-- No other multiple is nearer than the rounded quotient. -/
theorem divNearest_nearest (n k : Nat) (hd : 0 < d) :
    Nat.dist n (divNearest n d * d) ≤ Nat.dist n (k * d) := by
  have hdivmod := Nat.div_add_mod' n d
  have hmod := Nat.mod_lt n hd
  have hk : k * d ≤ n / d * d ∨ n / d * d + d ≤ k * d := by
    rcases Nat.lt_or_ge (n / d) k with hlt | hge
    · have h := Nat.mul_le_mul_right d (Nat.succ_le_of_lt hlt)
      rw [Nat.succ_mul] at h
      exact .inr h
    · exact .inl (Nat.mul_le_mul_right d hge)
  unfold Nat.dist
  rcases divNearest_cases n d with ⟨h, hrest⟩ | ⟨h, hrest⟩
  · rw [h]
    omega
  · rw [h, Nat.succ_mul (n / d) d]
    omega

/-! ## What floats denote -/

/-- What a positive float with the given bits denotes, in units of the least positive float. -/
def scaled (bits : Nat) : Nat :=
  if bits < impliedBit then bits
  else (impliedBit + bits % impliedBit) * twoTo (bits / impliedBit - 1)

/-- A mantissa that is twice the implied bit is the least mantissa of the next exponent. -/
theorem scaled_eq (exponent mantissa : Nat) (hlow : impliedBit ≤ mantissa)
    (hhigh : mantissa ≤ 2 * impliedBit) :
    scaled (exponent * impliedBit + mantissa) = mantissa * twoTo exponent := by
  have hge : ¬ exponent * impliedBit + mantissa < impliedBit :=
    Nat.not_lt.2 (Nat.le_trans hlow (Nat.le_add_left _ _))
  have hpos : 0 < impliedBit := by decide
  rw [scaled, if_neg hge]
  rcases Nat.lt_or_eq_of_le hhigh with hlt | rfl
  · obtain ⟨fraction, rfl⟩ := Nat.exists_eq_add_of_le hlow
    have hfraction : fraction < impliedBit := by omega
    have hbits : exponent * impliedBit + (impliedBit + fraction) =
        impliedBit * (exponent + 1) + fraction := by ring
    rw [hbits, Nat.mul_add_mod, Nat.mul_add_div hpos, Nat.mod_eq_of_lt hfraction,
      Nat.div_eq_of_lt hfraction]
    rfl
  · have hbits : exponent * impliedBit + 2 * impliedBit = impliedBit * (exponent + 2) := by ring
    rw [hbits, Nat.mul_mod_right, Nat.mul_div_cancel_left _ hpos]
    show (impliedBit + 0) * 2 ^ (exponent + 1) = 2 * impliedBit * 2 ^ exponent
    ring

/-- The bits have the order of what the floats denote. -/
theorem scaled_strictMono : StrictMono scaled := by
  refine strictMono_nat_of_lt_succ fun bits => ?_
  rcases Nat.lt_or_ge bits impliedBit with hlt | hge
  · have hbits : scaled bits = bits := if_pos hlt
    have hnext : scaled (bits + 1) = bits + 1 := by
      rcases Nat.lt_or_eq_of_le (Nat.succ_le_of_lt hlt) with hlt | heq
      · exact if_pos hlt
      · have h := scaled_eq 0 (bits + 1) heq.ge (by omega)
        rwa [Nat.zero_mul, Nat.zero_add, show twoTo 0 = 1 from rfl, Nat.mul_one] at h
    rw [hbits, hnext]
    exact Nat.lt_succ_self bits
  · have hpos : 0 < impliedBit := by decide
    have hmod := Nat.mod_lt bits hpos
    have hdivmod := Nat.div_add_mod' bits impliedBit
    obtain ⟨exponent, hexponent⟩ := Nat.exists_eq_succ_of_ne_zero (Nat.div_pos hge hpos).ne'
    have hsplit : bits = exponent * impliedBit + (impliedBit + bits % impliedBit) := by
      rw [hexponent, Nat.succ_mul] at hdivmod
      omega
    have hbits := scaled_eq exponent (impliedBit + bits % impliedBit) (by omega) (by omega)
    have hnext := scaled_eq exponent (impliedBit + bits % impliedBit + 1) (by omega) (by omega)
    rw [← Nat.add_assoc, ← hsplit] at hnext
    rw [← hsplit] at hbits
    rw [hbits, hnext]
    exact Nat.mul_lt_mul_of_pos_right (Nat.lt_succ_self _) (twoTo_pos exponent)

/-! ## Integers of 53 significant bits -/

/-- How far apart the integers of 53 significant bits are that have as many bits as `n`. -/
def spacing (n : Nat) : Nat := twoTo (n.log2 - 52)

/-- The integer of at most 53 significant bits that is nearest to `n`; of two that are as near, the one
    with the even last bit. -/
def roundNat (n : Nat) : Nat := divNearest n (spacing n) * spacing n

/-- The mantissa of the float nearest to `n`, with the implied bit. -/
def mantissa (n : Nat) : Nat := divNearest (n * twoTo (52 - n.log2)) (spacing n)

theorem spacing_pos (n : Nat) : 0 < spacing n := twoTo_pos _

theorem divNearest_one (n : Nat) : divNearest n 1 = n := by
  have h := divNearest_mul n Nat.one_pos
  rwa [Nat.mul_one] at h

/-- Numbers of 53 bits or fewer lie side by side. -/
theorem spacing_of_log2_le (h : n.log2 ≤ 52) : spacing n = 1 := by
  rw [spacing, Nat.sub_eq_zero_of_le h]
  rfl

/-- The mantissa and the rounded integer differ by a power of two. -/
theorem roundNat_mul (n : Nat) :
    roundNat n * twoTo (52 - n.log2) = mantissa n * twoTo (n.log2 - 52) := by
  rcases Nat.le_total n.log2 52 with hle | hge
  · rw [roundNat, mantissa, spacing_of_log2_le hle, divNearest_one, divNearest_one,
      Nat.sub_eq_zero_of_le hle, Nat.mul_one]
    exact (Nat.mul_one _).symm
  · rw [roundNat, mantissa, Nat.sub_eq_zero_of_le hge]
    show _ * 1 = divNearest (n * 1) _ * _
    rw [Nat.mul_one, Nat.mul_one]
    rfl

theorem twoTo_add (m n : Nat) : twoTo (m + n) = twoTo m * twoTo n := Nat.pow_add 2 m n

theorem twoTo_mul (k : Nat) : twoTo k * twoTo (52 - k) = impliedBit * twoTo (k - 52) := by
  rw [show impliedBit = twoTo 52 from rfl, ← twoTo_add, ← twoTo_add]
  exact congrArg twoTo (by omega)

/-- A number has no bit above its highest one. -/
theorem twoTo_log2_bound (n : Nat) : n ≤ 2 * twoTo n.log2 := by
  have hlt := (Nat.lt_log2_self (n := n)).le
  rwa [Nat.pow_succ'] at hlt

/-- The mantissa has 53 bits, or is the power of two behind them. -/
theorem mantissa_bounds (h : n ≠ 0) : impliedBit ≤ mantissa n ∧ mantissa n ≤ 2 * impliedBit := by
  have hmul : twoTo n.log2 * twoTo (52 - n.log2) = impliedBit * spacing n := twoTo_mul n.log2
  have hlow : impliedBit * spacing n ≤ n * twoTo (52 - n.log2) :=
    hmul ▸ Nat.mul_le_mul_right _ (Nat.log2_self_le h)
  have hhigh : n * twoTo (52 - n.log2) ≤ 2 * impliedBit * spacing n := by
    rw [Nat.mul_assoc, ← hmul, ← Nat.mul_assoc]
    exact Nat.mul_le_mul_right _ (twoTo_log2_bound n)
  constructor
  · rw [← divNearest_mul impliedBit (spacing_pos n)]
    exact divNearest_mono hlow _
  · rw [← divNearest_mul (2 * impliedBit) (spacing_pos n)]
    exact divNearest_mono hhigh _

/-- The rounded integer is at most half the spacing away. -/
theorem roundNat_near (n : Nat) :
    2 * roundNat n ≤ 2 * n + spacing n ∧ 2 * n ≤ 2 * roundNat n + spacing n :=
  divNearest_near n (spacing_pos n)

/-- What has at most 53 bits stays as it is. -/
theorem roundNat_of_le (h : n ≤ 2 ^ 53) : roundNat n = n := by
  rcases Nat.lt_or_eq_of_le h with hlt | rfl
  · have hlog : n.log2 ≤ 52 := by
      rcases Nat.eq_zero_or_pos n with rfl | hpos
      · exact Nat.zero_le _
      · exact Nat.le_of_lt_succ ((Nat.log2_lt hpos.ne').2 hlt)
    rw [roundNat, spacing_of_log2_le hlog, divNearest_one, Nat.mul_one]
  · decide

/-- Rounding does not go past the powers of two around the number. -/
theorem roundNat_bounds (h : n ≠ 0) :
    twoTo n.log2 ≤ roundNat n ∧ roundNat n ≤ 2 * twoTo n.log2 := by
  obtain ⟨hlow, hhigh⟩ := mantissa_bounds h
  have hpos := twoTo_pos (52 - n.log2)
  constructor
  · refine Nat.le_of_mul_le_mul_right ?_ hpos
    rw [twoTo_mul, roundNat_mul]
    exact Nat.mul_le_mul_right _ hlow
  · refine Nat.le_of_mul_le_mul_right ?_ hpos
    rw [Nat.mul_assoc, twoTo_mul, roundNat_mul, ← Nat.mul_assoc]
    exact Nat.mul_le_mul_right _ hhigh

/-- Rounding keeps the order. -/
theorem roundNat_mono : Monotone roundNat := by
  intro m n hle
  rcases Nat.eq_zero_or_pos m with rfl | hm
  · exact Nat.zero_le _
  have hn : n ≠ 0 := (Nat.lt_of_lt_of_le hm hle).ne'
  have hlog : m.log2 ≤ n.log2 :=
    (Nat.le_log2 hn).2 (Nat.le_trans (Nat.log2_self_le hm.ne') hle)
  rcases Nat.lt_or_eq_of_le hlog with hlt | heq
  · calc roundNat m ≤ 2 * twoTo m.log2 := (roundNat_bounds hm.ne').2
      _ = twoTo (m.log2 + 1) := (Nat.pow_succ' ..).symm
      _ ≤ twoTo n.log2 := Nat.pow_le_pow_right Nat.two_pos hlt
      _ ≤ roundNat n := (roundNat_bounds hn).1
  · rw [roundNat, roundNat, spacing, spacing, heq]
    exact Nat.mul_le_mul_right _ (divNearest_mono hle _)

/-! ## Floats that come from integers -/

/-- The bits, without the sign, of the float nearest to an integer of magnitude `n`. -/
def bitsOf (n : Nat) : Nat := if n = 0 then 0 else (n.log2 + 1022) * impliedBit + mantissa n

/-- The float nearest to an integer denotes the rounded integer. -/
theorem scaled_bitsOf (n : Nat) : scaled (bitsOf n) = roundNat n * twoTo 1074 := by
  rcases eq_or_ne n 0 with rfl | h
  · rw [show roundNat 0 = 0 from rfl, Nat.zero_mul]
    rfl
  obtain ⟨hlow, hhigh⟩ := mantissa_bounds h
  have hmul := roundNat_mul n
  rw [bitsOf, if_neg h, scaled_eq _ _ hlow hhigh]
  rcases Nat.le_total n.log2 52 with hle | hge
  · have hsum : twoTo (52 - n.log2) * twoTo (n.log2 + 1022) = twoTo 1074 := by
      rw [← twoTo_add]
      exact congrArg twoTo (by omega)
    rw [Nat.sub_eq_zero_of_le hle, show twoTo 0 = 1 from rfl, Nat.mul_one] at hmul
    rw [← hmul, Nat.mul_assoc, hsum]
  · have hsum : twoTo (n.log2 - 52) * twoTo 1074 = twoTo (n.log2 + 1022) := by
      rw [← twoTo_add]
      exact congrArg twoTo (by omega)
    rw [Nat.sub_eq_zero_of_le hge, show twoTo 0 = 1 from rfl, Nat.mul_one] at hmul
    rw [hmul, Nat.mul_assoc, hsum]

/-- No float denotes a number that is nearer to `n` than what the float nearest to it denotes. -/
theorem scaled_nearest (n bits : Nat) :
    Nat.dist (n * twoTo 1074) (scaled (bitsOf n)) ≤ Nat.dist (n * twoTo 1074) (scaled bits) := by
  rcases eq_or_ne n 0 with rfl | h
  · rw [scaled_bitsOf, show roundNat 0 = 0 from rfl, Nat.zero_mul, Nat.dist_self]
    exact Nat.zero_le _
  obtain ⟨hlow, hhigh⟩ := mantissa_bounds h
  have hunits : mantissa n = divNearest (n * twoTo 1074) (twoTo (n.log2 + 1022)) := by
    refine divNearest_congr (twoTo_pos _) (twoTo_pos _) ?_
    rw [spacing, Nat.mul_assoc, Nat.mul_assoc, ← twoTo_add, ← twoTo_add]
    exact congrArg (n * twoTo ·) (by omega)
  have hbinade : twoTo n.log2 * twoTo 1074 = impliedBit * twoTo (n.log2 + 1022) := by
    rw [show impliedBit = twoTo 52 from rfl, ← twoTo_add, ← twoTo_add]
    exact congrArg twoTo (by omega)
  have hleast : impliedBit * twoTo (n.log2 + 1022) ≤ n * twoTo 1074 := by
    rw [← hbinade]
    exact Nat.mul_le_mul_right _ (Nat.log2_self_le h)
  have hgreatest : n * twoTo 1074 ≤ 2 * impliedBit * twoTo (n.log2 + 1022) := by
    rw [Nat.mul_assoc, ← hbinade, ← Nat.mul_assoc]
    exact Nat.mul_le_mul_right _ (twoTo_log2_bound n)
  have hnearest (k : Nat) := divNearest_nearest (n * twoTo 1074) k (twoTo_pos (n.log2 + 1022))
  rw [bitsOf, if_neg h, scaled_eq _ _ hlow hhigh, hunits]
  -- outside the floats with the exponent of `n`, the least and the greatest of these are nearer
  rcases Nat.lt_or_ge bits ((n.log2 + 1022) * impliedBit + impliedBit) with hbelow | hge
  · have hscaled := scaled_strictMono hbelow
    rw [scaled_eq _ _ (Nat.le_refl _) (by omega)] at hscaled
    refine Nat.le_trans (hnearest impliedBit) ?_
    unfold Nat.dist
    omega
  rcases Nat.lt_or_ge ((n.log2 + 1022) * impliedBit + 2 * impliedBit) bits with habove | hle
  · have hscaled := scaled_strictMono habove
    rw [scaled_eq _ _ (by omega) (Nat.le_refl _)] at hscaled
    refine Nat.le_trans (hnearest (2 * impliedBit)) ?_
    unfold Nat.dist
    omega
  · obtain ⟨m, rfl⟩ := Nat.exists_eq_add_of_le (Nat.le_trans (Nat.le_add_right _ _) hge)
    rw [scaled_eq _ _ (by omega) (by omega)]
    exact hnearest m

/-- The bits order floats as the rounded integers are ordered. -/
theorem bitsOf_lt_iff {m : Nat} : bitsOf m < bitsOf n ↔ roundNat m < roundNat n := by
  rw [← scaled_strictMono.lt_iff_lt, scaled_bitsOf, scaled_bitsOf,
    Nat.mul_lt_mul_right (twoTo_pos 1074)]

/-- The last bit of the float nearest to an integer, 52 below its highest one. -/
theorem lastBit_one (h : n ≠ 0) : lastBit n 1 = (n.log2 : Int) - 52 := by
  have hle : 1 * twoTo n.log2 ≤ n * 1 := by
    rw [Nat.one_mul, Nat.mul_one]
    exact Nat.log2_self_le h
  have htop : 1 * twoTo ((n.log2 : Int) - Nat.log2 1).toNat ≤
      n * twoTo (-((n.log2 : Int) - Nat.log2 1)).toNat := by
    have hlog : ((n.log2 : Int) - Nat.log2 1) = n.log2 := Int.sub_zero _
    rwa [hlog, Int.toNat_natCast, Int.toNat_neg_natCast]
  unfold lastBit
  dsimp only
  rw [if_pos htop]
  show max ((n.log2 : Int) - 0 - 52) (-1074) = _
  omega

/-- No integer of 64 bits becomes infinite. -/
theorem bitsOf_lt (h : n < 2 ^ 64) : bitsOf n < infiniteMagnitude := by
  rw [bitsOf]
  split
  · decide
  · next hn =>
    obtain ⟨-, hhigh⟩ := mantissa_bounds hn
    have hlog : n.log2 < 64 := (Nat.log2_lt hn).2 h
    have hle : (n.log2 + 1022) * impliedBit ≤ 1085 * impliedBit := Nat.mul_le_mul_right _ (by omega)
    have hlt : 1085 * impliedBit + 2 * impliedBit < infiniteMagnitude := by decide
    omega

/-- The units that the last bit of the mantissa counts, and how many of them there are. -/
theorem units_eq (n : Nat) :
    let last := if n = 0 then -1074 else lastBit n 1
    (last + 1074).toNat * impliedBit +
      divNearest (n * twoTo (-last).toNat) (1 * twoTo last.toNat) = bitsOf n := by
  intro last
  rcases eq_or_ne n 0 with rfl | hn
  · have hdiv := divNearest_mul 0 (twoTo_pos 0)
    rw [Nat.zero_mul] at hdiv
    rw [Nat.zero_mul, Nat.one_mul]
    show 0 * impliedBit + divNearest 0 (twoTo 0) = 0
    rw [hdiv]
    rfl
  · have hlast : last = (n.log2 : Int) - 52 := (if_neg hn).trans (lastBit_one hn)
    have hexponent : (last + 1074).toNat = n.log2 + 1022 := by omega
    have hdown : (-last).toNat = 52 - n.log2 := by omega
    have hup : last.toNat = n.log2 - 52 := by omega
    rw [hexponent, hdown, hup, Nat.one_mul, bitsOf, if_neg hn]
    rfl

/-- The float of the given sign that is nearest to a natural number; what is too large becomes
    infinite. -/
def nearest (negative : Bool) (n : Nat) : Float :=
  ofMagnitude negative (min (bitsOf n) infiniteMagnitude)

theorem ofRatio_one (negative : Bool) (n : Nat) : ofRatio negative n 1 = nearest negative n := by
  rw [ofRatio, nearest, ← units_eq, ofMagnitude]

/-- The float of an integer, by its sign and its magnitude. -/
theorem ofInt_eq (z : Int) : ofInt z = nearest (z < 0) z.natAbs := ofRatio_one _ _

theorem ofInt_natCast (n : Nat) : ofInt n = nearest false n := by
  rw [ofInt_eq, Int.natAbs_natCast, decide_eq_false (by omega)]

/-- The float nearest to an integer has the bits of its magnitude, and its sign. -/
theorem ofInt_bits {z : Int} (h : z.natAbs < 2 ^ 64) :
    magnitude (ofInt z) = bitsOf z.natAbs ∧ isNegative (ofInt z) = decide (z < 0) := by
  rw [ofInt_eq, nearest, Nat.min_eq_left (bitsOf_lt h).le]
  exact magnitude_ofMagnitude (bitsOf_lt h).le _

/-! ## Order -/

/-- A function of magnitudes, taken to integers. -/
def signed (f : Nat → Nat) (z : Int) : Int := if z < 0 then -(f z.natAbs : Int) else f z.natAbs

/-- The integer of at most 53 significant bits that is nearest to `z`. -/
def roundInt (z : Int) : Int := signed roundNat z

/-- The place of the float of an integer in the order of floats. -/
theorem place?_ofInt {z : Int} (h : z.natAbs < 2 ^ 64) : place? (ofInt z) = some (signed bitsOf z) := by
  obtain ⟨hmagnitude, hnegative⟩ := ofInt_bits h
  rw [place?, hmagnitude, hnegative, if_neg (Nat.not_lt.2 (bitsOf_lt h).le), signed]
  simp only [decide_eq_true_eq]

/-- A comparison is known by what is less and what is greater. -/
theorem compare_congr {x y x' y' : Int} (hlt : x < y ↔ x' < y') (hgt : y < x ↔ y' < x') :
    compare x y = compare x' y' := by
  rcases lt_trichotomy x y with h | rfl | h
  · rw [compare_lt_iff_lt.2 h, compare_lt_iff_lt.2 (hlt.1 h)]
  · rw [compare_eq_iff_eq.2 rfl, compare_eq_iff_eq.2 (by omega)]
  · rw [compare_gt_iff_gt.2 h, compare_gt_iff_gt.2 (hgt.1 h)]

/-- Functions that order magnitudes in the same way order integers in the same way. -/
theorem signed_lt_iff {f g : Nat → Nat} (hf : f 0 = 0) (hg : g 0 = 0)
    (h : ∀ m n, f m < f n ↔ g m < g n) (x y : Int) :
    signed f x < signed f y ↔ signed g x < signed g y := by
  have hxy := h x.natAbs y.natAbs
  have hyx := h y.natAbs x.natAbs
  have hx := h 0 x.natAbs
  have hy := h 0 y.natAbs
  rw [hf, hg] at hx hy
  unfold signed
  split <;> split <;> omega

/-- Floats that come from integers are in the order of the rounded integers. -/
theorem compare?_ofInt {x y : Int} (hx : x.natAbs < 2 ^ 64) (hy : y.natAbs < 2 ^ 64) :
    compare? (ofInt x) (ofInt y) = some (compare (roundInt x) (roundInt y)) := by
  have horder := signed_lt_iff (f := bitsOf) (g := roundNat) rfl rfl fun _ _ => bitsOf_lt_iff
  rw [compare?, place?_ofInt hx, place?_ofInt hy]
  exact congrArg some (compare_congr (horder x y) (horder y x))

/-- Rounding of integers keeps the order. -/
theorem roundInt_mono {x y : Int} (hle : x ≤ y) : roundInt x ≤ roundInt y := by
  have hzero : roundNat 0 = 0 := rfl
  unfold roundInt signed
  split <;> split
  · have := roundNat_mono (show y.natAbs ≤ x.natAbs by omega)
    omega
  · omega
  · omega
  · have := roundNat_mono (show x.natAbs ≤ y.natAbs by omega)
    omega

/-- Integers of at most 53 bits stay as they are. -/
theorem roundInt_of_le {z : Int} (h : z.natAbs ≤ 2 ^ 53) : roundInt z = z := by
  rw [roundInt, signed, roundNat_of_le h]
  split <;> omega

/-- A small integer is what no other integer is rounded to. -/
theorem eq_of_roundInt_eq {x y : Int} (hx : x.natAbs < 2 ^ 53) (h : roundInt x = roundInt y) :
    x = y := by
  rw [roundInt_of_le hx.le] at h
  rcases Nat.le_total y.natAbs (2 ^ 53) with hle | hge
  · rw [h, roundInt_of_le hle]
  · have hlow : 2 ^ 53 ≤ roundNat y.natAbs := by
      rw [← roundNat_of_le (Nat.le_refl (2 ^ 53))]
      exact roundNat_mono hge
    unfold roundInt signed at h
    split at h <;> omega

/-- Rounded integers are in the order of the integers, unless different ones became the same. -/
theorem compare_roundInt {x y : Int} (h : x = y ∨ roundInt x ≠ roundInt y) :
    compare (roundInt x) (roundInt y) = compare x y := by
  rcases h with rfl | hne
  · rw [compare_eq_iff_eq.2 rfl, compare_eq_iff_eq.2 rfl]
  have hlt {v w : Int} (hne : roundInt v ≠ roundInt w) : roundInt v < roundInt w ↔ v < w := by
    refine ⟨fun h => not_le.1 fun hle => not_le.2 h (roundInt_mono hle), fun h => ?_⟩
    exact lt_of_le_of_ne (roundInt_mono h.le) hne
  exact compare_congr (hlt hne) (hlt hne.symm)

/-- An integer of 64 bits is off by 512 at most when it is rounded. -/
theorem roundInt_near {z : Int} (h : z.natAbs ≤ 2 ^ 63) : (roundInt z - z).natAbs ≤ 512 := by
  have hnear : roundNat z.natAbs ≤ z.natAbs + 512 ∧ z.natAbs ≤ roundNat z.natAbs + 512 := by
    rcases Nat.lt_or_eq_of_le h with hlt | heq
    · have hspacing : spacing z.natAbs ≤ twoTo 10 := by
        refine Nat.pow_le_pow_right Nat.two_pos ?_
        rcases eq_or_ne z.natAbs 0 with hzero | hzero
        · rw [hzero]
          exact Nat.zero_le _
        · have := (Nat.log2_lt hzero).2 hlt
          omega
      have hnear := roundNat_near z.natAbs
      have hten : twoTo 10 = 1024 := rfl
      omega
    · rw [heq, show roundNat (2 ^ 63) = 2 ^ 63 by decide]
      omega
  unfold roundInt signed
  split <;> omega

end RuleSieve.Binary64
