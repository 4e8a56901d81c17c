/-
  Arithmetic on integers.

  A sum, a difference or a product that has no room in 64 bits is refused, and so is a quotient.  What
  is computed is exact: the truncated quotient and remainder of the machine are put right by one where
  the signs differ, and neither step leaves the 64 bits (`StaysWithin`).  So a quotient is rounded down
  and a remainder has the sign of the divisor (`RoundsDown`).
-/
import Mathlib.Data.Rat.Floor
import Mathlib.Tactic.FieldSimp
import Mathlib.Tactic.Linarith
import RuleSieve.Predicate.Evaluation

namespace RuleSieve.Predicate

/-! ## Division of integers -/

/-- The quotient and the remainder of a division that rounds down. -/
structure RoundsDown (a b q r : Int) : Prop where
  divides : a = b * q + r
  remainder : 0 ≤ r ∧ r < b ∨ b < r ∧ r ≤ 0

/-- The quotient is the exact one, rounded down. -/
theorem RoundsDown.floor_eq {a b q r : Int} (h : RoundsDown a b q r) : ⌊(a / b : ℚ)⌋ = q := by
  have hdivides : (a : ℚ) = b * q + r := by exact_mod_cast h.divides
  rw [Int.floor_eq_iff]
  rcases h.remainder with ⟨hlow, hhigh⟩ | ⟨hlow, hhigh⟩
  · have hb : (0 : ℚ) < b := by exact_mod_cast (show 0 < b by omega)
    have hr : (0 : ℚ) ≤ r := by exact_mod_cast hlow
    have hrb : (r : ℚ) < b := by exact_mod_cast hhigh
    rw [le_div_iff₀ hb, div_lt_iff₀ hb]
    constructor <;> linarith
  · have hb : (b : ℚ) < 0 := by exact_mod_cast (show b < 0 by omega)
    have hr : (r : ℚ) ≤ 0 := by exact_mod_cast hhigh
    have hrb : (b : ℚ) < r := by exact_mod_cast hlow
    rw [le_div_iff_of_neg hb, div_lt_iff_of_neg hb]
    constructor <;> linarith

/-- A truncated quotient, with a remainder that has the sign of the dividend. -/
structure Truncates (a b q r : Int) : Prop where
  divides : a = b * q + r
  small : r.natAbs < b.natAbs
  sign : r ≠ 0 → (r < 0 ↔ a < 0)

theorem truncates (a : Int) {b : Int} (hb : b ≠ 0) : Truncates a b (a.tdiv b) (a.tmod b) := by
  refine ⟨(Int.mul_tdiv_add_tmod a b).symm, ?_, ?_⟩
  · rw [Int.natAbs_tmod]
    exact Nat.mod_lt _ (Int.natAbs_pos.2 hb)
  · intro hrest
    rcases lt_or_ge a 0 with ha | ha
    · have hneg := Int.tmod_nonneg b (show 0 ≤ -a by omega)
      rw [Int.neg_tmod] at hneg
      omega
    · have hrem := Int.tmod_nonneg b ha
      omega

/-- A truncated quotient is put right by one where there is a rest and the signs differ. -/
theorem Truncates.roundsDown {a b q r : Int} (h : Truncates a b q r) :
    (¬ (r ≠ 0 ∧ (a < 0) ≠ (b < 0)) → RoundsDown a b q r) ∧
    (r ≠ 0 ∧ (a < 0) ≠ (b < 0) → RoundsDown a b (q - 1) (r + b)) := by
  have hsmall := h.small
  have hsign := h.sign
  simp only [ne_eq, eq_iff_iff]
  constructor
  · intro hsame
    exact ⟨h.divides, by omega⟩
  · intro hdiffer
    refine ⟨?_, by omega⟩
    rw [h.divides, Int.mul_sub, Int.mul_one]
    omega

/-! ## Words -/

/-- A result that has room is not wrapped around. -/
theorem bmod_of_fits {n : Int} (h : Word.Fits n) : n.bmod (2 ^ 64) = n := by
  obtain ⟨hlow, hhigh⟩ := h
  rw [Word.half] at hlow hhigh
  exact Int.bmod_eq_of_le (by omega) (by omega)

/-- The steps on the way to a quotient or a remainder for which nothing is checked: the truncated
    quotient has room, and what is put right by one has room again. -/
structure StaysWithin (a b : Int64) : Prop where
  truncated : Word.Fits (a.toInt.tdiv b.toInt)
  lowered : a % b ≠ 0 ∧ (a < 0) ≠ (b < 0) → Word.Fits (a.toInt.tdiv b.toInt - 1)
  raised : a % b ≠ 0 ∧ (a % b < 0) ≠ (b < 0) → Word.Fits (a.toInt.tmod b.toInt + b.toInt)

variable {a b : Int64}

theorem toInt_eq_zero : b.toInt = 0 ↔ b = 0 := by
  rw [← Int64.toInt_zero, Int64.toInt_inj]

theorem toInt_div (h : quotientOverflows a b = false) : (a / b).toInt = a.toInt.tdiv b.toInt := by
  rw [quotientOverflows, Bool.and_eq_false_iff, beq_eq_false_iff_ne, beq_eq_false_iff_ne] at h
  rcases h with ha | hb
  · exact Int64.toInt_div_of_ne_left a b ha
  · exact Int64.toInt_div_of_ne_right a b hb

theorem staysWithin (hb : b ≠ 0) (h : quotientOverflows a b = false) : StaysWithin a b := by
  have htruncates := truncates a.toInt (mt toInt_eq_zero.1 hb)
  have hquotient : Word.Fits (a.toInt.tdiv b.toInt) := toInt_div h ▸ Word.fits_toInt (a / b)
  have ha := Word.fits_toInt a
  have hb := Word.fits_toInt b
  obtain ⟨hdivides, hsmall, hsign⟩ := htruncates
  refine ⟨hquotient, ?_, ?_⟩
  · rintro ⟨hrest, -⟩
    rw [Ne, ← toInt_eq_zero, Int64.toInt_mod] at hrest
    -- a quotient that has no neighbour below belongs to the divisor one
    have hleast : a.toInt.tdiv b.toInt ≠ -(Word.half : Int) := by
      intro hleast
      rw [hleast] at hdivides
      simp only [Word.Fits, Word.half] at ha hb hdivides
      omega
    simp only [Word.Fits, Word.half] at hquotient hleast ⊢
    omega
  · rintro ⟨hrest, hdiffer⟩
    rw [Ne, eq_iff_iff, Int64.lt_iff_toInt_lt, Int64.lt_iff_toInt_lt, Int64.toInt_mod,
      Int64.toInt_zero] at hdiffer
    simp only [Word.Fits, Word.half] at hb ⊢
    omega

/-- Where the truncated quotient exists, quotient and remainder are those of a division that rounds
    down. -/
theorem floorDiv_floorMod (hb : b ≠ 0) (h : quotientOverflows a b = false) :
    ∃ q r, floorDiv a b = .ok q ∧ floorMod a b = .ok r ∧
      RoundsDown a.toInt b.toInt q.toInt r.toInt := by
  have htruncates := truncates a.toInt (mt toInt_eq_zero.1 hb)
  obtain ⟨-, hlowered, hraised⟩ := staysWithin hb h
  obtain ⟨hexact, hright⟩ := htruncates.roundsDown
  have hnoOverflow : ¬ quotientOverflows a b = true := by simp [h]
  have hrest : a % b ≠ 0 ↔ a.toInt.tmod b.toInt ≠ 0 := by
    rw [Ne, ← toInt_eq_zero, Int64.toInt_mod]
  have hneg (c : Int64) : (c < 0) = (c.toInt < 0) := by
    rw [Int64.lt_iff_toInt_lt, Int64.toInt_zero]
  have hsame : a % b ≠ 0 ∧ (a % b < 0) ≠ (b < 0) ↔ a % b ≠ 0 ∧ (a < 0) ≠ (b < 0) := by
    refine and_congr_right fun hne => ?_
    rw [hneg, hneg, hneg, Int64.toInt_mod, htruncates.sign (hrest.1 hne)]
  unfold floorDiv floorMod
  rw [if_neg hb, if_neg hnoOverflow, if_neg hb, if_neg hnoOverflow]
  by_cases hdiffer : a % b ≠ 0 ∧ (a < 0) ≠ (b < 0)
  · rw [if_pos hdiffer, if_pos (hsame.2 hdiffer)]
    have hquotient : (a / b - 1).toInt = a.toInt.tdiv b.toInt - 1 := by
      rw [Int64.toInt_sub, toInt_div h, Int64.toInt_one]
      exact bmod_of_fits (hlowered hdiffer)
    have hremainder : (a % b + b).toInt = a.toInt.tmod b.toInt + b.toInt := by
      rw [Int64.toInt_add, Int64.toInt_mod]
      exact bmod_of_fits (hraised (hsame.2 hdiffer))
    refine ⟨_, _, rfl, rfl, ?_⟩
    rw [hquotient, hremainder]
    exact hright ⟨hrest.1 hdiffer.1, by rw [← hneg, ← hneg]; exact hdiffer.2⟩
  · rw [if_neg hdiffer, if_neg (mt hsame.1 hdiffer)]
    refine ⟨_, _, rfl, rfl, ?_⟩
    rw [toInt_div h, Int64.toInt_mod]
    refine hexact fun hints => hdiffer ⟨hrest.2 hints.1, ?_⟩
    rw [hneg, hneg]
    exact hints.2

/-- Neither a quotient nor a remainder exists where the divisor is zero or the truncated quotient has
    no room. -/
theorem floorDiv_cases (a b : Int64) :
    (b = 0 ∧ floorDiv a b = .error .divisionByZero ∧ floorMod a b = .error .divisionByZero) ∨
    (b ≠ 0 ∧ quotientOverflows a b = true ∧ floorDiv a b = overflow ∧ floorMod a b = overflow) ∨
    (b ≠ 0 ∧ quotientOverflows a b = false) := by
  unfold floorDiv floorMod
  by_cases hb : b = 0
  · exact .inl ⟨hb, if_pos hb, if_pos hb⟩
  · cases hoverflow : quotientOverflows a b with
    | true => exact .inr (.inl ⟨hb, rfl, by rw [if_neg hb]; rfl, by rw [if_neg hb]; rfl⟩)
    | false => exact .inr (.inr ⟨hb, rfl⟩)

theorem exists_of_eq_ok {n : Int64} (h : floorDiv a b = .ok n ∨ floorMod a b = .ok n) :
    b ≠ 0 ∧ quotientOverflows a b = false := by
  rcases floorDiv_cases a b with ⟨-, hdiv, hmod⟩ | ⟨-, -, hdiv, hmod⟩ | hexists
  · rw [hdiv, hmod] at h
    rcases h with h | h <;> cases h
  · rw [hdiv, hmod] at h
    rcases h with h | h <;> cases h
  · exact hexists

theorem roundsDown_of_eq_ok {q r : Int64} (hq : floorDiv a b = .ok q) (hr : floorMod a b = .ok r) :
    RoundsDown a.toInt b.toInt q.toInt r.toInt := by
  obtain ⟨hb, hoverflow⟩ := exists_of_eq_ok (.inl hq)
  obtain ⟨q', r', hq', hr', hdown⟩ := floorDiv_floorMod hb hoverflow
  obtain rfl := Except.ok.inj (hq'.symm.trans hq)
  obtain rfl := Except.ok.inj (hr'.symm.trans hr)
  exact hdown

/-! ## Operations -/

/-- The integer that an operation gives by rights: a quotient is rounded down, and a remainder is what
    such a quotient leaves.  Division proper gives none. -/
def ArithOp.integer? (op : ArithOp) (a b : Int) : Option Int :=
  match op with
  | .add => some (a + b)
  | .sub => some (a - b)
  | .mul => some (a * b)
  | .div => none
  | .floorDiv => some ⌊(a / b : ℚ)⌋
  | .mod => some (a - b * ⌊(a / b : ℚ)⌋)

theorem map_int_eq_ok_iff {x : Except Error Int64} {value : Value} :
    x.map Value.int = .ok value ↔ ∃ n, x = .ok n ∧ value = .int n := by
  cases x with
  | error e => simp [Except.map]
  | ok n => simp [Except.map, eq_comm]

theorem fit_eq_ok_iff {n : Int} {w : Int64} : fit n = .ok w ↔ w.toInt = n := by
  rw [← Word.ofInt?_eq_some_iff, fit]
  cases Word.ofInt? n with
  | none => simp [overflow]
  | some v => simp

/-- An operation that gives an integer gives the exact one. -/
theorem intArith_exact (op : ArithOp) {n : Int64} (h : intArith op a b = .ok (.int n)) :
    op.integer? a.toInt b.toInt = some n.toInt := by
  have hfit {m : Int} (h : (fit m).map Value.int = .ok (.int n)) : m = n.toInt := by
    obtain ⟨w, hw, heq⟩ := map_int_eq_ok_iff.1 h
    cases heq
    exact (fit_eq_ok_iff.1 hw).symm
  cases op with
  | add | sub | mul => exact congrArg some (hfit h)
  | div =>
    rw [intArith] at h
    split at h <;> cases h
  | floorDiv =>
    obtain ⟨q, hq, heq⟩ := map_int_eq_ok_iff.1 h
    cases heq
    obtain ⟨hb, hoverflow⟩ := exists_of_eq_ok (.inl hq)
    obtain ⟨-, r, -, hr, -⟩ := floorDiv_floorMod hb hoverflow
    exact congrArg some (roundsDown_of_eq_ok hq hr).floor_eq
  | mod =>
    obtain ⟨r, hr, heq⟩ := map_int_eq_ok_iff.1 h
    cases heq
    obtain ⟨hb, hoverflow⟩ := exists_of_eq_ok (.inr hr)
    obtain ⟨q, -, hq, -⟩ := floorDiv_floorMod hb hoverflow
    have hdown := roundsDown_of_eq_ok hq hr
    have hdivides := hdown.divides
    rw [ArithOp.integer?, hdown.floor_eq, Option.some.injEq]
    omega

/-- Just a division by zero says that it is one. -/
theorem intArith_divisionByZero_iff {op : ArithOp} (hop : op = .div ∨ op = .floorDiv ∨ op = .mod) :
    intArith op a b = .error .divisionByZero ↔ b = 0 := by
  rcases hop with rfl | rfl | rfl
  · rw [intArith]
    split <;> simp [*]
  · rw [intArith]
    rcases floorDiv_cases a b with ⟨hb, hdiv, -⟩ | ⟨hb, -, hdiv, -⟩ | ⟨hb, hoverflow⟩
    · exact iff_of_true (by rw [hdiv]; rfl) hb
    · simp [hdiv, hb, Except.map, overflow]
    · obtain ⟨q, r, hq, -⟩ := floorDiv_floorMod hb hoverflow
      simp [hq, hb, Except.map]
  · rw [intArith]
    rcases floorDiv_cases a b with ⟨hb, -, hmod⟩ | ⟨hb, -, -, hmod⟩ | ⟨hb, hoverflow⟩
    · exact iff_of_true (by rw [hmod]; rfl) hb
    · simp [hmod, hb, Except.map, overflow]
    · obtain ⟨q, r, -, hr, -⟩ := floorDiv_floorMod hb hoverflow
      simp [hr, hb, Except.map]

/-- Operands that are integers or truth values are taken as integers. -/
theorem arith_of_int? {v w : Value} (hv : v.int? = some a) (hw : w.int? = some b) (op : ArithOp) :
    arith op v w = intArith op a b := by
  unfold arith
  split
  · cases hv
  · rw [hv, hw]

theorem eval_arith {scope : Scope} {left right : Term} {v w : Value}
    (hleft : left.eval scope = .ok v) (hright : right.eval scope = .ok w) (op : ArithOp) :
    (Term.arith op left right).eval scope = arith op v w := by
  rw [Term.eval, hleft, hright]
  rfl

/-- Arithmetic on operands that are integers or truth values.  What it gives is exact; a division says
    that it is one by zero just where it is; where quotient and remainder both exist, they belong to a
    division that rounds down; and no step on the way that goes unchecked leaves the 64 bits. -/
theorem eval_arith_exact {scope : Scope} {left right : Term} {v w : Value}
    (hleft : left.eval scope = .ok v) (hright : right.eval scope = .ok w)
    (hv : v.int? = some a) (hw : w.int? = some b) :
    (∀ (op : ArithOp) (n : Int64), (Term.arith op left right).eval scope = .ok (.int n) →
      op.integer? a.toInt b.toInt = some n.toInt) ∧
    (∀ op : ArithOp, op = .div ∨ op = .floorDiv ∨ op = .mod →
      ((Term.arith op left right).eval scope = .error .divisionByZero ↔ b.toInt = 0)) ∧
    (∀ x y : Value, (Term.arith .floorDiv left right).eval scope = .ok x →
      (Term.arith .mod left right).eval scope = .ok y →
      ∃ q r, x = .int q ∧ y = .int r ∧ RoundsDown a.toInt b.toInt q.toInt r.toInt) ∧
    (b ≠ 0 → quotientOverflows a b = false → StaysWithin a b) := by
  have heval (op : ArithOp) : (Term.arith op left right).eval scope = intArith op a b :=
    (eval_arith hleft hright op).trans (arith_of_int? hv hw op)
  simp only [heval]
  refine ⟨intArith_exact, fun op hop => ?_, fun x y hx hy => ?_, staysWithin⟩
  · rw [intArith_divisionByZero_iff hop, toInt_eq_zero]
  · obtain ⟨q, hq, rfl⟩ := map_int_eq_ok_iff.1 hx
    obtain ⟨r, hr, rfl⟩ := map_int_eq_ok_iff.1 hy
    exact ⟨q, r, rfl, rfl, roundsDown_of_eq_ok hq hr⟩

/-- The least integer, divided by ten. -/
theorem eval_arith_exact_least :
    (Term.arith .floorDiv (.literal (.int Int64.minValue)) (.literal (.int 10))).eval [] =
      .ok (.int (-922337203685477581)) ∧
    (Term.arith .mod (.literal (.int Int64.minValue)) (.literal (.int 10))).eval [] =
      .ok (.int 2) ∧
    ∃ q r, Value.int (-922337203685477581) = .int q ∧ Value.int 2 = .int r ∧
      RoundsDown (Int64.minValue).toInt (10 : Int64).toInt q.toInt r.toInt := by
  obtain ⟨-, -, hboth, -⟩ := eval_arith_exact (a := Int64.minValue) (b := 10)
    (Term.eval.eq_1 [] (.int Int64.minValue)) (Term.eval.eq_1 [] (.int 10)) rfl rfl
  have hq : (Term.arith .floorDiv (.literal (.int Int64.minValue)) (.literal (.int 10))).eval [] =
      .ok (.int (-922337203685477581)) := by
    rw [eval_arith (Term.eval.eq_1 [] _) (Term.eval.eq_1 [] _)]
    rfl
  have hr : (Term.arith .mod (.literal (.int Int64.minValue)) (.literal (.int 10))).eval [] =
      .ok (.int 2) := by
    rw [eval_arith (Term.eval.eq_1 [] _) (Term.eval.eq_1 [] _)]
    rfl
  exact ⟨hq, hr, hboth _ _ hq hr⟩

end RuleSieve.Predicate
