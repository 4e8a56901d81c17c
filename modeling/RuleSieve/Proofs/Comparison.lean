/-
  Integers that are compared.

  Both sides of a comparison become floats, so two integers are compared as the integers of 53
  significant bits that are nearest to them.  Integers that are small or far apart keep their order,
  but two integers that are rounded to the same one count as equal (`comparesAs_iff`).
-/
import RuleSieve.Filter
import RuleSieve.Proofs.Rounding

namespace RuleSieve.Predicate

open Binary64 (roundInt)

/-! ## Comparisons of integers -/

/-- What one of the six comparisons of numbers says of two numbers in the given order. -/
def CompareOp.says? (op : CompareOp) (order : Ordering) : Option Bool :=
  match op with
  | .equal => some order.isEq
  | .notEqual => some order.isNe
  | .less => some order.isLT
  | .lessEqual => some order.isLE
  | .greater => some order.isGT
  | .greaterEqual => some order.isGE
  | .within | .notWithin | .matching => none

/-- Terms with the values `a` and `b` are compared as the integers `x` and `y` are, and so is a
    metavariable that is bound to a text that writes `a` with `b`. -/
structure ComparesAs (a b : Int64) (x y : Int) : Prop where
  eval : ∀ (op : CompareOp) (answer : Bool), op.says? (compare x y) = some answer →
    ∀ (scope : Scope) (left right : Term), left.eval scope = .ok (.int a) →
      right.eval scope = .ok (.int b) →
      (Term.compare left [(op, right)]).eval scope = .ok (.bool answer)
  holds : ∀ (op : CompareOp) (answer : Bool), op.says? (compare x y) = some answer →
    ∀ (source : String) (condition : MetavariableCondition) (s : Span) (text : String),
      NumberText.read? text (condition.strip.getD false) condition.base = some (.int a) →
      Filter.comparisonHolds
        ⟨source, .compare (.name condition.metavariable) [(op, .literal (.int b))]⟩ condition s text =
          (answer, [])

theorem natAbs_toInt_le (a : Int64) : a.toInt.natAbs ≤ 2 ^ 63 := by
  have hlow := a.le_toInt
  have hhigh := a.toInt_lt
  omega

theorem compare?_int (a b : Int64) :
    Binary64.compare? (Binary64.ofInt a.toInt) (Binary64.ofInt b.toInt) =
      some (compare (roundInt a.toInt) (roundInt b.toInt)) :=
  Binary64.compare?_ofInt (Nat.lt_of_le_of_lt (natAbs_toInt_le a) (by decide))
    (Nat.lt_of_le_of_lt (natAbs_toInt_le b) (by decide))

theorem compareBy_int (a b : Int64) {op : CompareOp} {answer : Bool}
    (h : op.says? (compare (roundInt a.toInt) (roundInt b.toInt)) = some answer) :
    compareBy op (.int a) (.int b) = .ok answer := by
  have hequal : equal (.int a) (.int b) = (compare (roundInt a.toInt) (roundInt b.toInt)).isEq := by
    show (Binary64.compare? _ _ == some .eq) = _
    rw [compare?_int]
    cases compare (roundInt a.toInt) (roundInt b.toInt) <;> rfl
  have horder (symbol : String) : order symbol (.int a) (.int b) =
      .ok (compare (roundInt a.toInt) (roundInt b.toInt)) := by
    show (Binary64.compare? _ _).elim _ _ = _
    rw [compare?_int]
    rfl
  cases op with
  | equal =>
    cases h
    exact congrArg Except.ok hequal
  | notEqual =>
    cases h
    show Except.ok (!equal (.int a) (.int b)) = _
    rw [hequal]
    cases compare (roundInt a.toInt) (roundInt b.toInt) <;> rfl
  | less | lessEqual | greater | greaterEqual =>
    cases h
    rw [compareBy, horder]
    rfl
  | within | notWithin | matching => cases h

/-- A comparison of two terms has the outcome of the comparison of their values. -/
theorem eval_compare {scope : Scope} {left right : Term} {op : CompareOp} {v w : Value} {answer : Bool}
    (hleft : left.eval scope = .ok v) (hright : right.eval scope = .ok w)
    (h : compareBy op v w = .ok answer) :
    (Term.compare left [(op, right)]).eval scope = .ok (.bool answer) := by
  rw [Term.eval, hleft]
  show evalLinks scope v [(op, right)] = _
  rw [evalLinks, hright]
  show (compareBy op v w >>= _) = _
  rw [h]
  cases answer <;> rfl

/-- Integers are compared as the rounded integers. -/
theorem comparesAs_roundInt (a b : Int64) : ComparesAs a b (roundInt a.toInt) (roundInt b.toInt) := by
  refine ⟨fun op answer hsays scope left right hleft hright =>
    eval_compare hleft hright (compareBy_int a b hsays), ?_⟩
  intro op answer hsays source condition s text hread
  have hname : (Term.name condition.metavariable).eval [(condition.metavariable, .int a)] =
      .ok (.int a) := by
    rw [Term.eval, Dict.find?, if_pos rfl]
  have heval := eval_compare hname (Term.eval.eq_1 _ (.int b)) (compareBy_int a b hsays)
  rw [Filter.comparisonHolds, hread]
  dsimp only
  rw [evaluate, heval]
  rfl

/-! ## Integers that are told apart -/

theorem ComparesAs.congr {a b : Int64} {x y x' y' : Int} (h : ComparesAs a b x y)
    (horder : compare x' y' = compare x y) : ComparesAs a b x' y' := by
  constructor
  · rw [horder]
    exact h.eval
  · rw [horder]
    exact h.holds

/-- Two integers are compared as such just if they are the same or are rounded to different integers.
    That is so if one of them has at most 53 bits, or if they are more than 1024 apart; and in any case
    it is the rounded integers that are compared. -/
theorem comparesAs_iff (a b : Int64) :
    ComparesAs a b (roundInt a.toInt) (roundInt b.toInt) ∧
    (ComparesAs a b a.toInt b.toInt ↔ a = b ∨ roundInt a.toInt ≠ roundInt b.toInt) ∧
    (a.toInt.natAbs < 2 ^ 53 ∨ b.toInt.natAbs < 2 ^ 53 → ComparesAs a b a.toInt b.toInt) ∧
    (1024 < (a.toInt - b.toInt).natAbs → ComparesAs a b a.toInt b.toInt) := by
  have hrounded := comparesAs_roundInt a b
  have hapart (h : a.toInt = b.toInt ∨ roundInt a.toInt ≠ roundInt b.toInt) :
      ComparesAs a b a.toInt b.toInt := hrounded.congr (Binary64.compare_roundInt h).symm
  refine ⟨hrounded, ⟨fun hexact => ?_, fun h => ?_⟩, fun hsmall => ?_, fun hfar => ?_⟩
  · -- integers that are told apart cannot both be equal and not equal
    refine or_iff_not_imp_left.2 fun hne hsame => ?_
    have hnot : compare a.toInt b.toInt ≠ .eq :=
      fun h => hne (Int64.toInt_inj.1 (compare_eq_iff_eq.1 h))
    have hsays : CompareOp.equal.says? (compare a.toInt b.toInt) = some false := by
      generalize compare a.toInt b.toInt = order at hnot
      cases order with
      | eq => exact absurd rfl hnot
      | lt | gt => rfl
    have hsays' : CompareOp.equal.says? (compare (roundInt a.toInt) (roundInt b.toInt)) =
        some true := by
      rw [compare_eq_iff_eq.2 hsame]
      rfl
    have heval := hexact.eval _ _ hsays [] (.literal (.int a)) (.literal (.int b))
      (Term.eval.eq_1 ..) (Term.eval.eq_1 ..)
    have heval' := hrounded.eval _ _ hsays' [] (.literal (.int a)) (.literal (.int b))
      (Term.eval.eq_1 ..) (Term.eval.eq_1 ..)
    cases heval.symm.trans heval'
  · exact hapart (h.imp_left (congrArg Int64.toInt))
  · refine hapart (or_iff_not_imp_right.2 fun hsame => ?_)
    rcases hsmall with ha | hb
    · exact Binary64.eq_of_roundInt_eq ha (not_not.1 hsame)
    · exact (Binary64.eq_of_roundInt_eq hb (not_not.1 hsame).symm).symm
  · refine hapart (.inr fun hsame => ?_)
    have ha := Binary64.roundInt_near (natAbs_toInt_le a)
    have hb := Binary64.roundInt_near (natAbs_toInt_le b)
    omega

/-- Large integers that are far enough apart. -/
theorem comparesAs_iff_large :
    ComparesAs 4611686018427387904 4611686018427389952 4611686018427387904 4611686018427389952 :=
  (comparesAs_iff 4611686018427387904 4611686018427389952).2.2.2 (by decide)

/-- Two to the power of 53 and the integer behind it count as equal. -/
theorem not_comparesAs_above :
    ∃ a b : Int64, a.toInt = 9007199254740993 ∧ b.toInt = 9007199254740992 ∧
      (Term.compare (.literal (.int a)) [(.equal, .literal (.int b))]).eval [] = .ok (.bool true) ∧
      ¬ ComparesAs a b a.toInt b.toInt := by
  have hsays : CompareOp.equal.says? (compare (roundInt 9007199254740993) (roundInt 9007199254740992)) =
      some true := by decide
  have heval := (comparesAs_roundInt 9007199254740993 9007199254740992).eval _ _ hsays []
    (.literal (.int 9007199254740993)) (.literal (.int 9007199254740992))
    (Term.eval.eq_1 ..) (Term.eval.eq_1 ..)
  refine ⟨9007199254740993, 9007199254740992, by decide, by decide, heval, fun hexact => ?_⟩
  have heval' := hexact.eval .equal false (by decide) [] (.literal (.int 9007199254740993))
    (.literal (.int 9007199254740992)) (Term.eval.eq_1 ..) (Term.eval.eq_1 ..)
  cases heval.symm.trans heval'

end RuleSieve.Predicate
