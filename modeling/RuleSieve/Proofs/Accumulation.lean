/-
  Numbers that are added up digit by digit, in floats.

  The float is rounded twice for each digit: when it is multiplied by the base, and when the digit is
  added (`carried`).  Up to 53 bits nothing is lost.  In a base that is a power of two no product is
  rounded; so the number is rounded where it first has more than 53 bits, and from then on no digit
  counts any more (`carried_twoTo`).  What comes out is the rounded number, unless the digits that count
  are halfway between two floats (`carried_eq_roundNat_iff`).
-/
import Mathlib.Data.Nat.Digits.Defs
import RuleSieve.Proofs.FloatArithmetic

namespace RuleSieve.Binary64

variable {base n : Nat}

/-- What the digits of a number are added up to, from the first to the last. -/
def carried (base n : Nat) : Nat :=
  (Nat.digits base n).foldr (fun d acc => roundNat (roundNat (acc * base) + d)) 0

theorem carried_zero (base : Nat) : carried base 0 = 0 := by
  rw [carried, Nat.digits_zero, List.foldr_nil]

/-- What one more digit does. -/
theorem carried_add (hbase : 1 < base) (n : Nat) {d : Nat} (hd : d < base) :
    carried base (n * base + d) = roundNat (roundNat (carried base n * base) + d) := by
  by_cases h : d = 0 ∧ n = 0
  · obtain ⟨rfl, rfl⟩ := h
    rw [Nat.zero_mul, Nat.add_zero, carried_zero, Nat.zero_mul]
    rfl
  · rw [carried, Nat.add_comm, Nat.mul_comm, Nat.digits_add base hbase d n hd (by omega),
      List.foldr_cons, ← carried]

/-- What is carried is a float. -/
theorem roundNat_carried (base n : Nat) : roundNat (carried base n) = carried base n := by
  rw [carried]
  cases Nat.digits base n with
  | nil => exact roundNat_of_le (Nat.zero_le _)
  | cons d ds => exact roundNat_roundNat _

/-- One step in floats: the product is rounded, and so is the sum. -/
theorem nearest_carried_add (hbase : 1 < base) (hsmall : base ≤ 2 ^ 53) (n : Nat) {d : Nat}
    (hd : d < base) :
    nearest false (carried base n) * nearest false base + nearest false d =
      nearest false (carried base (n * base + d)) := by
  have hfinite : bitsOf base < infiniteMagnitude := bitsOf_lt (Nat.lt_of_le_of_lt hsmall (by decide))
  rw [nearest_mul _ (by omega) hfinite, nearest_add, roundNat_carried, roundNat_of_le hsmall,
    roundNat_of_le (n := d) (by omega), carried_add hbase n hd, nearest_roundNat]

/-- The last digit is added to what the digits before it were added up to. -/
theorem carried_div (hbase : 1 < base) (n : Nat) :
    carried base n = roundNat (roundNat (carried base (n / base) * base) + n % base) := by
  rw [← carried_add hbase _ (Nat.mod_lt n (by omega)), Nat.div_add_mod']

/-- Nothing is lost of a number that has at most 53 bits. -/
theorem carried_of_le (hbase : 1 < base) (h : n ≤ 2 ^ 53) : carried base n = n := by
  induction n using Nat.strong_induction_on with
  | h n ih =>
    rcases Nat.eq_zero_or_pos n with rfl | hpos
    · exact carried_zero base
    have hdivmod := Nat.div_add_mod' n base
    have hlt := Nat.div_lt_self hpos hbase
    rw [carried_div hbase, ih _ hlt (by omega), roundNat_of_le (n := n / base * base) (by omega),
      hdivmod, roundNat_of_le h]

/-- If a number has more than 53 bits, so has what is carried. -/
theorem le_carried (hbase : 1 < base) (h : 2 ^ 53 ≤ n) : 2 ^ 53 ≤ carried base n := by
  induction n using Nat.strong_induction_on with
  | h n ih =>
    have hdivmod := Nat.div_add_mod' n base
    have hlt := Nat.div_lt_self (Nat.lt_of_lt_of_le (by decide) h) hbase
    rw [carried_div hbase]
    refine twoTo_le_roundNat (k := 53) ?_
    rcases Nat.le_total (carried base (n / base) * base) (2 ^ 53) with hsmall | hlarge
    · -- the number first has more than 53 bits with its last digit, so nothing was lost before
      have hlow : n / base < 2 ^ 53 := by
        refine Nat.lt_of_not_le fun hge => ?_
        have hgrown := Nat.mul_le_mul (ih _ hlt hge) hbase
        omega
      rw [carried_of_le hbase hlow.le] at hsmall ⊢
      rwa [roundNat_of_le hsmall, hdivmod]
    · exact Nat.le_add_right_of_le (twoTo_le_roundNat hlarge)

/-! ## Bases that are powers of two -/

variable {k : Nat}

theorem one_lt_twoTo (hk : 0 < k) : 1 < twoTo k := Nat.one_lt_two_pow hk.ne'

/-- In a base that is a power of two, a digit is rounded only when it is added. -/
theorem carried_twoTo_div (hk : 0 < k) (n : Nat) :
    carried (twoTo k) n = roundNat (carried (twoTo k) (n / twoTo k) * twoTo k + n % twoTo k) := by
  rw [carried_div (one_lt_twoTo hk), roundNat_mul_twoTo, roundNat_carried]

/-- More bits in front make the spacing wider. -/
theorem spacing_mul_add {d : Nat} (hlog : 52 ≤ n.log2) (hd : d < twoTo k) :
    spacing (n * twoTo k + d) = spacing n * twoTo k := by
  have hne : n ≠ 0 := by
    rintro rfl
    exact absurd hlog (by decide)
  rw [spacing, spacing, log2_mul_twoTo_add hne hd, ← twoTo_add]
  exact congrArg twoTo (by omega)

/-- Floats of more than 53 bits are an even number apart. -/
theorem two_dvd_spacing (h : 2 ^ 53 ≤ n) : 2 ∣ spacing n := by
  have hlog : 53 ≤ n.log2 := (Nat.le_log2 (by omega)).2 h
  exact dvd_pow_self 2 (by omega)

/-- Digits that follow make a difference only where the first ones are halfway and are rounded down. -/
theorem divNearest_append {p s d r : Nat} (hs : 2 ∣ s) (hr : r < d) :
    divNearest (p * d + r) (s * d) = divNearest p s ↔
      ¬ (2 * (p % s) = s ∧ p / s % 2 = 0 ∧ r ≠ 0) := by
  obtain ⟨half, rfl⟩ := hs
  have hwhole : (p * d + r) / d = p ∧ (p * d + r) % d = r := by
    rw [Nat.mul_comm, Nat.mul_add_div (by omega), Nat.mul_add_mod, Nat.div_eq_of_lt hr,
      Nat.mod_eq_of_lt hr]
    exact ⟨rfl, rfl⟩
  have hdiv : (p * d + r) / (2 * half * d) = p / (2 * half) := by
    rw [Nat.mul_comm (2 * half), ← Nat.div_div_eq_div_mul, hwhole.1]
  have hmod : (p * d + r) % (2 * half * d) = r + d * (p % (2 * half)) := by
    rw [Nat.mul_comm (2 * half), Nat.mod_mul, hwhole.1, hwhole.2]
  have hscale : 2 * half * d = 2 * (d * half) := by ring
  rw [divNearest, divNearest, hdiv, hmod, hscale]
  generalize p % (2 * half) = rest
  generalize p / (2 * half) = whole
  -- with `half` a whole number, only a rest of exactly `half` is moved past it by what follows
  rcases lt_trichotomy rest half with hlt | rfl | hgt
  · have hbelow := Nat.mul_le_mul_left d (Nat.succ_le_of_lt hlt)
    rw [Nat.mul_succ] at hbelow
    rw [if_pos (by omega), if_pos (by omega)]
    exact iff_of_true rfl (by omega)
  · rw [if_neg (by omega), if_neg (Nat.lt_irrefl _), if_neg (Nat.lt_irrefl _)]
    split <;> omega
  · have habove := Nat.mul_le_mul_left d (Nat.succ_le_of_lt hgt)
    rw [Nat.mul_succ] at habove
    rw [if_neg (by omega), if_pos (by omega), if_neg (by omega), if_pos (by omega)]
    exact iff_of_true rfl (by omega)

/-- The number is halfway between two floats, the lower of which has an even mantissa. -/
def Halfway (n : Nat) : Prop := 2 * (n % spacing n) = spacing n ∧ n / spacing n % 2 = 0

instance (n : Nat) : Decidable (Halfway n) := inferInstanceAs (Decidable (_ ∧ _))

/-- Low bits change the rounded number just if it was halfway between two floats without them. -/
theorem roundNat_append {r : Nat} (hn : 2 ^ 53 ≤ n) (hr : r < twoTo k) :
    roundNat (n * twoTo k + r) = roundNat n * twoTo k ↔ ¬ (Halfway n ∧ r ≠ 0) := by
  have hlog : 53 ≤ n.log2 := (Nat.le_log2 (by omega)).2 hn
  have hspacing : spacing (n * twoTo k + r) = spacing n * twoTo k := spacing_mul_add (by omega) hr
  have hpos : 0 < spacing n * twoTo k := Nat.mul_pos (spacing_pos n) (twoTo_pos k)
  rw [roundNat, roundNat, hspacing, Nat.mul_assoc, Nat.mul_left_inj hpos.ne',
    divNearest_append (two_dvd_spacing hn) hr, Halfway, and_assoc]

/-- Where there are more than 53 bits, a digit does not count any more. -/
theorem roundNat_mul_add {d : Nat} (hn : 2 ^ 53 ≤ n) (hrounded : roundNat n = n)
    (hd : d < twoTo k) : roundNat (n * twoTo k + d) = n * twoTo k := by
  have hmultiple : n % spacing n = 0 := Nat.mod_eq_zero_of_dvd (Dvd.intro_left _ hrounded)
  have hnot : ¬ Halfway n := by
    rintro ⟨hhalf, -⟩
    have := spacing_pos n
    omega
  rw [(roundNat_append hn hd).2 fun h => hnot h.1, hrounded]

/-- A digit behind more than 53 bits is lost, whatever it is. -/
theorem carried_mul_add (hk : 0 < k) (hn : 2 ^ 53 ≤ n / twoTo k) :
    carried (twoTo k) n = carried (twoTo k) (n / twoTo k) * twoTo k := by
  rw [carried_twoTo_div hk, roundNat_mul_add (le_carried (one_lt_twoTo hk) hn) (roundNat_carried _ _)
    (Nat.mod_lt n (twoTo_pos k))]

/-- How many digits stand behind those that have more than 53 bits. -/
def dropped (base n : Nat) : Nat := Nat.log base (n / 2 ^ 53)

/-- The digits that count. -/
def leading (base n : Nat) : Nat := n / base ^ dropped base n

/-- What is carried is the number of the first digits that have more than 53 bits, rounded, with
    zeros behind it. -/
theorem carried_of_bounds (hk : 0 < k) {j : Nat} (hlow : j = 0 ∨ 2 ^ 53 ≤ n / twoTo k ^ j)
    (hhigh : n / twoTo k ^ (j + 1) < 2 ^ 53) :
    carried (twoTo k) n = roundNat (n / twoTo k ^ j) * twoTo k ^ j := by
  induction j generalizing n with
  | zero =>
    rw [Nat.zero_add, Nat.pow_one] at hhigh
    rw [carried_twoTo_div hk, carried_of_le (one_lt_twoTo hk) hhigh.le, Nat.div_add_mod', Nat.pow_zero,
      Nat.div_one, Nat.mul_one]
  | succ j ih =>
    have hlow := hlow.resolve_left (Nat.succ_ne_zero j)
    have hdiv (i : Nat) : n / twoTo k ^ (i + 1) = n / twoTo k / twoTo k ^ i := by
      rw [Nat.pow_succ', Nat.div_div_eq_div_mul]
    rw [hdiv] at hlow hhigh ⊢
    -- there are more than 53 bits without the last digit, which is dropped
    have hdigit : 2 ^ 53 ≤ n / twoTo k := Nat.le_trans hlow (Nat.div_le_self _ _)
    rw [carried_mul_add hk hdigit, ih (.inr hlow) hhigh, Nat.mul_assoc, ← Nat.pow_succ]

/-- The digits that count have more than 53 bits, unless all of them count; one digit less has not. -/
theorem leading_bounds (hbase : 1 < base) (n : Nat) :
    (dropped base n = 0 ∨ 2 ^ 53 ≤ leading base n) ∧
      n / base ^ (dropped base n + 1) < 2 ^ 53 := by
  have hpos (j : Nat) : 0 < base ^ j := Nat.pow_pos (by omega)
  constructor
  · rcases Nat.eq_zero_or_pos (n / 2 ^ 53) with hzero | hlarge
    · exact .inl (by rw [dropped, hzero, Nat.log_zero_right])
    · refine .inr ((Nat.le_div_iff_mul_le (hpos _)).2 ?_)
      rw [Nat.mul_comm]
      exact (Nat.le_div_iff_mul_le (by decide)).1 (Nat.pow_log_le_self base hlarge.ne')
  · refine (Nat.div_lt_iff_lt_mul (hpos _)).2 ?_
    rw [Nat.mul_comm]
    exact (Nat.div_lt_iff_lt_mul (by decide)).1 (Nat.lt_pow_succ_log_self hbase _)

/-- In a base that is a power of two the leading digits are rounded, and no other digit counts. -/
theorem carried_twoTo (hk : 0 < k) (n : Nat) :
    carried (twoTo k) n = roundNat (leading (twoTo k) n) * twoTo k ^ dropped (twoTo k) n := by
  obtain ⟨hlow, hhigh⟩ := leading_bounds (one_lt_twoTo hk) n
  exact carried_of_bounds hk hlow hhigh

/-- The leading digits are halfway between two floats and are rounded down, while something follows that
    would have them rounded up. -/
def Misrounds (base n : Nat) : Prop := Halfway (leading base n) ∧ n % base ^ dropped base n ≠ 0

instance (base n : Nat) : Decidable (Misrounds base n) := inferInstanceAs (Decidable (_ ∧ _))

/-- The number is put together of its leading digits and those that are dropped. -/
theorem exists_append (k n : Nat) : ∃ i, twoTo k ^ dropped (twoTo k) n = twoTo i ∧
    leading (twoTo k) n * twoTo i + n % twoTo i = n := by
  have hpow : twoTo k ^ dropped (twoTo k) n = twoTo (k * dropped (twoTo k) n) :=
    (Nat.pow_mul 2 k _).symm
  refine ⟨_, hpow, ?_⟩
  rw [leading, hpow, Nat.div_add_mod']

/-- In a base that is a power of two the number is rounded to the nearest, unless it is misrounded. -/
theorem carried_eq_roundNat_iff (hk : 0 < k) (n : Nat) :
    carried (twoTo k) n = roundNat n ↔ ¬ Misrounds (twoTo k) n := by
  obtain ⟨hall | hlarge, -⟩ := leading_bounds (one_lt_twoTo hk) n
  · rw [carried_twoTo hk, Misrounds, leading, hall, Nat.pow_zero, Nat.div_one, Nat.mul_one, Nat.mod_one]
    exact iff_of_true rfl fun h => h.2 rfl
  · obtain ⟨i, hpow, hsplit⟩ := exists_append k n
    have hrest := Nat.mod_lt n (twoTo_pos i)
    rw [carried_twoTo hk, Misrounds, hpow, eq_comm, ← roundNat_append hlarge hrest, hsplit]

/-- A number that is halfway is rounded down. -/
theorem Halfway.roundNat_le (h : Halfway n) : roundNat n ≤ n := by
  have hdown : divNearest n (spacing n) = n / spacing n := by
    rw [divNearest, if_neg (by rw [h.1]; exact Nat.lt_irrefl _),
      if_neg (by rw [h.1]; exact Nat.lt_irrefl _), h.2, Nat.add_zero]
  rw [roundNat, hdown]
  exact Nat.div_mul_le_self n (spacing n)

/-- What is added up has no bit less than the number. -/
theorem twoTo_le_carried (hk : 0 < k) {j : Nat} (hn : twoTo j ≤ n) : twoTo j ≤ carried (twoTo k) n := by
  have hne : n ≠ 0 := (Nat.lt_of_lt_of_le (twoTo_pos j) hn).ne'
  obtain ⟨i, hpow, hsplit⟩ := exists_append k n
  have hleading : leading (twoTo k) n ≠ 0 := by
    obtain ⟨hall | hlarge, -⟩ := leading_bounds (one_lt_twoTo hk) n
    · rwa [leading, hall, Nat.pow_zero, Nat.div_one]
    · omega
  rw [carried_twoTo hk, hpow]
  calc twoTo j ≤ twoTo n.log2 := Nat.pow_le_pow_right Nat.two_pos ((Nat.le_log2 hne).2 hn)
    _ = twoTo (leading (twoTo k) n).log2 * twoTo i := by
        rw [← twoTo_add, ← log2_mul_twoTo_add hleading (Nat.mod_lt n (twoTo_pos i)), hsplit]
    _ ≤ roundNat (leading (twoTo k) n) * twoTo i := Nat.mul_le_mul_right _ (roundNat_bounds hleading).1

/-- A float that is added up in a base that is a power of two is the nearest one, unless it is misrounded
    and not too large. -/
theorem capped_carried_iff (hk : 0 < k) (n : Nat) :
    capped (carried (twoTo k) n) = capped n ↔ ¬ Misrounds (twoTo k) n ∨ overflow ≤ n := by
  have hrounded := carried_eq_roundNat_iff hk n
  rw [capped, capped, roundNat_carried]
  rcases Nat.lt_or_ge n overflow with hlt | hge
  · rw [or_iff_left (Nat.not_le.2 hlt), ← hrounded]
    refine ⟨fun h => ?_, fun h => by rw [h]⟩
    by_contra hne
    -- what is misrounded is rounded down, so it is not too large either
    obtain ⟨hhalf, -⟩ := not_not.1 (mt hrounded.2 hne)
    have hle : carried (twoTo k) n ≤ n := by
      obtain ⟨i, hpow, hsplit⟩ := exists_append k n
      rw [carried_twoTo hk, hpow]
      calc roundNat (leading (twoTo k) n) * twoTo i
          ≤ leading (twoTo k) n * twoTo i := Nat.mul_le_mul_right _ hhalf.roundNat_le
        _ ≤ n := by omega
    omega
  · have hlarge : overflow ≤ carried (twoTo k) n := twoTo_le_carried hk hge
    have hlarge' : overflow ≤ roundNat n := twoTo_le_roundNat hge
    exact iff_of_true (by omega) (.inr hge)

end RuleSieve.Binary64
