/-
  Integer results that have no room.

  A change of sign, a sum, a difference, a product and a quotient that is rounded down are refused as too
  large just where the exact result has no room in 64 bits.  A remainder always has room, but it is
  refused along with the truncated quotient, and that has none for the least integer divided by minus one
  (`refusesOnlyOverflow_iff`).
-/
import RuleSieve.Proofs.IntegerArithmetic

namespace RuleSieve.Predicate

variable {a b : Int64}

/-! ## Quotients and remainders -/

theorem quotientOverflows_iff : quotientOverflows a b = true ↔ a = Int64.minValue ∧ b = -1 := by
  rw [quotientOverflows, Bool.and_eq_true, beq_iff_eq, beq_iff_eq]

/-- The least integer divided by minus one leaves no rest, but the quotient has no room. -/
theorem roundsDown_least : RoundsDown (Int64.minValue).toInt (-1 : Int64).toInt Word.half 0 :=
  ⟨rfl, .inr ⟨by decide, Int.le_refl 0⟩⟩

/-- What is left by the exact quotient, rounded down, is the remainder that belongs to it. -/
theorem RoundsDown.rest_eq {a b q r : Int} (h : RoundsDown a b q r) : a - b * ⌊(a / b : ℚ)⌋ = r := by
  have hdivides := h.divides
  rw [h.floor_eq]
  omega

theorem floorDiv_eq_overflow_iff :
    floorDiv a b = .error (.type .overflow) ↔ ¬ Word.Fits ⌊(a.toInt / b.toInt : ℚ)⌋ := by
  rcases floorDiv_cases a b with ⟨hb, hdiv, -⟩ | ⟨-, hoverflow, hdiv, -⟩ | ⟨hb, hoverflow⟩
  · have hfloor : ⌊(a.toInt / b.toInt : ℚ)⌋ = 0 := by
      rw [hb, Int64.toInt_zero, Int.cast_zero, div_zero, Int.floor_zero]
    rw [hdiv, hfloor]
    exact iff_of_false (by simp) (not_not.2 (by decide))
  · obtain ⟨rfl, rfl⟩ := quotientOverflows_iff.1 hoverflow
    rw [hdiv, roundsDown_least.floor_eq]
    exact iff_of_true rfl (by decide)
  · obtain ⟨q, r, hq, -, hdown⟩ := floorDiv_floorMod hb hoverflow
    rw [hq, hdown.floor_eq]
    exact iff_of_false (by simp) (not_not.2 (Word.fits_toInt q))

theorem floorMod_eq_overflow_iff :
    floorMod a b = .error (.type .overflow) ↔ quotientOverflows a b = true := by
  rcases floorDiv_cases a b with ⟨hb, -, hmod⟩ | ⟨-, hoverflow, -, hmod⟩ | ⟨hb, hoverflow⟩
  · rw [hmod]
    refine iff_of_false (by simp) fun hoverflow => ?_
    rw [hb] at hoverflow
    exact absurd (quotientOverflows_iff.1 hoverflow).2 (by decide)
  · rw [hmod]
    exact iff_of_true rfl hoverflow
  · obtain ⟨q, r, -, hr, -⟩ := floorDiv_floorMod hb hoverflow
    rw [hr, hoverflow]
    exact iff_of_false (by simp) Bool.false_ne_true

/-- A remainder has room, whatever becomes of the quotient. -/
theorem fits_rest (a b : Int64) :
    Word.Fits (a.toInt - b.toInt * ⌊(a.toInt / b.toInt : ℚ)⌋) := by
  rcases floorDiv_cases a b with ⟨hb, -⟩ | ⟨-, hoverflow, -⟩ | ⟨hb, hoverflow⟩
  · rw [hb, Int64.toInt_zero, Int.zero_mul, Int.sub_zero]
    exact Word.fits_toInt a
  · obtain ⟨rfl, rfl⟩ := quotientOverflows_iff.1 hoverflow
    rw [roundsDown_least.rest_eq]
    decide
  · obtain ⟨q, r, -, -, hdown⟩ := floorDiv_floorMod hb hoverflow
    rw [hdown.rest_eq]
    exact Word.fits_toInt r

/-! ## Operations -/

theorem map_int_eq_error_iff {x : Except Error Int64} {e : Error} :
    x.map Value.int = .error e ↔ x = .error e := by
  cases x <;> simp [Except.map]

theorem fit_eq_overflow_iff {n : Int} : fit n = .error (.type .overflow) ↔ ¬ Word.Fits n := by
  unfold fit Word.ofInt?
  split
  · next h => exact iff_of_false (by simp) (not_not.2 h)
  · next h => exact iff_of_true rfl h

/-- An operation is refused as too large where the exact result has no room; a remainder is refused
    where the truncated quotient has none. -/
theorem intArith_eq_overflow_iff {op : ArithOp} {exact : Int}
    (h : op.integer? a.toInt b.toInt = some exact) :
    intArith op a b = .error (.type .overflow) ↔
      ¬ Word.Fits exact ∨ op = .mod ∧ quotientOverflows a b = true := by
  have hfit (hop : op ≠ .mod) {x : Except Error Int64}
      (hx : x = .error (.type .overflow) ↔ ¬ Word.Fits exact) :
      x.map Value.int = .error (.type .overflow) ↔
        ¬ Word.Fits exact ∨ op = .mod ∧ quotientOverflows a b = true := by
    rw [map_int_eq_error_iff, hx]
    exact (or_iff_left fun hmod => hop hmod.1).symm
  cases op with
  | add | sub | mul =>
    cases h
    exact hfit (by decide) fit_eq_overflow_iff
  | div => cases h
  | floorDiv =>
    cases h
    exact hfit (by decide) floorDiv_eq_overflow_iff
  | mod =>
    cases h
    show (floorMod a b).map Value.int = _ ↔ _
    rw [map_int_eq_error_iff, floorMod_eq_overflow_iff, or_iff_right (not_not.2 (fits_rest a b))]
    exact (and_iff_right rfl).symm

/-- A change of sign is refused as too large where the result has no room. -/
theorem negate_eq_overflow_iff {v : Value} (h : v.int? = some a) :
    negate v = .error (.type .overflow) ↔ ¬ Word.Fits (-a.toInt) := by
  cases v with
  | int n =>
    cases h
    exact map_int_eq_error_iff.trans fit_eq_overflow_iff
  | bool truth =>
    cases h
    exact iff_of_false (by simp [negate]) (by cases truth <;> decide)
  | float | str | map => cases h

theorem eval_neg {scope : Scope} {operand : Term} {v : Value} (h : operand.eval scope = .ok v) :
    (Term.neg operand).eval scope = negate v := by
  rw [Term.eval, h]
  rfl

theorem eval_neg_eq_overflow_iff {scope : Scope} {operand : Term} {v : Value}
    (h : operand.eval scope = .ok v) (hv : v.int? = some a) :
    (Term.neg operand).eval scope = .error (.type .overflow) ↔ ¬ Word.Fits (-a.toInt) := by
  rw [eval_neg h, negate_eq_overflow_iff hv]

theorem eval_arith_eq_overflow_iff {scope : Scope} {left right : Term} {v w : Value}
    (hleft : left.eval scope = .ok v) (hright : right.eval scope = .ok w) (hv : v.int? = some a)
    (hw : w.int? = some b) {op : ArithOp} {exact : Int}
    (hexact : op.integer? a.toInt b.toInt = some exact) :
    (Term.arith op left right).eval scope = .error (.type .overflow) ↔
      ¬ Word.Fits exact ∨ op = .mod ∧ a = Int64.minValue ∧ b = -1 := by
  rw [eval_arith hleft hright, arith_of_int? hv hw, intArith_eq_overflow_iff hexact,
    quotientOverflows_iff]

/-! ## Results that are refused -/

/-- No operation on the integers `a` and `b` is refused as too large although the exact result has room.
    The operands are any terms with these values; truth values count as zero and one. -/
structure RefusesOnlyOverflow (a b : Int64) : Prop where
  neg : ∀ (scope : Scope) (operand : Term) (v : Value), operand.eval scope = .ok v → v.int? = some a →
    (Term.neg operand).eval scope = .error (.type .overflow) → ¬ Word.Fits (-a.toInt)
  arith : ∀ (op : ArithOp) (exact : Int), op.integer? a.toInt b.toInt = some exact →
    ∀ (scope : Scope) (left right : Term) (v w : Value), left.eval scope = .ok v →
      right.eval scope = .ok w → v.int? = some a → w.int? = some b →
      (Term.arith op left right).eval scope = .error (.type .overflow) → ¬ Word.Fits exact

/-- The operations on two integers are refused only where the exact result has no room, unless the least
    integer is taken with minus one.  In every case a change of sign is refused just where its result has
    no room, and an operation just where its result has none or where it is the remainder of these two. -/
theorem refusesOnlyOverflow_iff (a b : Int64) :
    (RefusesOnlyOverflow a b ↔ ¬ (a = Int64.minValue ∧ b = -1)) ∧
    (∀ (scope : Scope) (operand : Term) (v : Value), operand.eval scope = .ok v → v.int? = some a →
      ((Term.neg operand).eval scope = .error (.type .overflow) ↔ ¬ Word.Fits (-a.toInt))) ∧
    (∀ (op : ArithOp) (exact : Int), op.integer? a.toInt b.toInt = some exact →
      ∀ (scope : Scope) (left right : Term) (v w : Value), left.eval scope = .ok v →
        right.eval scope = .ok w → v.int? = some a → w.int? = some b →
        ((Term.arith op left right).eval scope = .error (.type .overflow) ↔
          ¬ Word.Fits exact ∨ op = .mod ∧ a = Int64.minValue ∧ b = -1)) := by
  refine ⟨⟨fun honly hleast => ?_, fun hother => ⟨?_, ?_⟩⟩, ?_, ?_⟩
  · -- the remainder of these two is refused, and yet it has room
    have hrefused : (Term.arith .mod (.literal (.int a)) (.literal (.int b))).eval [] =
        .error (.type .overflow) :=
      (eval_arith_eq_overflow_iff (Term.eval.eq_1 ..) (Term.eval.eq_1 ..) rfl rfl rfl).2
        (.inr ⟨rfl, hleast⟩)
    exact honly.arith .mod _ rfl _ _ _ _ _ (Term.eval.eq_1 ..) (Term.eval.eq_1 ..) rfl rfl hrefused
      (fits_rest a b)
  · intro scope operand v heval hv hrefused
    exact (eval_neg_eq_overflow_iff heval hv).1 hrefused
  · intro op exact hexact scope left right v w hleft hright hv hw hrefused
    have hcases := (eval_arith_eq_overflow_iff hleft hright hv hw hexact).1 hrefused
    exact hcases.resolve_right fun hrest => hother hrest.2
  · intro scope operand v heval hv
    exact eval_neg_eq_overflow_iff heval hv
  · intro op exact hexact scope left right v w hleft hright hv hw
    exact eval_arith_eq_overflow_iff hleft hright hv hw hexact

/-- The least integer with ten: its tenfold has no room, and neither has its negation. -/
theorem refusesOnlyOverflow_iff_ten :
    RefusesOnlyOverflow Int64.minValue 10 ∧
    (Term.neg (.literal (.int Int64.minValue))).eval [] = .error (.type .overflow) ∧
    (Term.arith .mul (.literal (.int Int64.minValue)) (.literal (.int 10))).eval [] =
      .error (.type .overflow) := by
  obtain ⟨honly, hneg, harith⟩ := refusesOnlyOverflow_iff Int64.minValue 10
  refine ⟨honly.2 (by decide), (hneg _ _ _ (Term.eval.eq_1 ..) rfl).2 (by decide), ?_⟩
  exact (harith .mul _ rfl _ _ _ _ _ (Term.eval.eq_1 ..) (Term.eval.eq_1 ..) rfl rfl).2
    (.inl (by decide))

/-- The least integer leaves no rest when it is divided by minus one, and yet the remainder is refused. -/
theorem not_refusesOnlyOverflow_least :
    (Term.arith .mod (.literal (.int Int64.minValue)) (.literal (.int (-1)))).eval [] =
      .error (.type .overflow) ∧
    (Error.type .overflow).message = "type error: integer overflow" ∧
    ArithOp.mod.integer? (Int64.minValue).toInt (-1 : Int64).toInt = some 0 ∧ Word.Fits 0 ∧
    ¬ RefusesOnlyOverflow Int64.minValue (-1) := by
  have heval : (Term.arith .mod (.literal (.int Int64.minValue)) (.literal (.int (-1)))).eval [] =
      .error (.type .overflow) := by
    rw [eval_arith (Term.eval.eq_1 ..) (Term.eval.eq_1 ..)]
    rfl
  have hexact : ArithOp.mod.integer? (Int64.minValue).toInt (-1 : Int64).toInt = some 0 :=
    congrArg some roundsDown_least.rest_eq
  have hfits : Word.Fits 0 := by decide
  refine ⟨heval, rfl, hexact, hfits, fun honly => ?_⟩
  exact honly.arith .mod 0 hexact _ _ _ _ _ (Term.eval.eq_1 ..) (Term.eval.eq_1 ..) rfl rfl heval hfits

end RuleSieve.Predicate
