/-
  Comparisons that fit together.

  Texts are in order with texts, and numbers of all types with numbers; what is no number, and a map, is
  in order with nothing (`Ordered`).  Equality is decided apart from the order and for all values, but
  where there is an order, it is what the order says (`equal_iff`).  So the six comparisons of two values
  agree with one another and with those of the swapped values, and they are transitive
  (`comparisons_consistent`).
-/
import RuleSieve.Proofs.Comparison

namespace RuleSieve

open Std (TransOrd)

variable {o : Ordering}

/-! ## Floats with an order -/

/-- Comparisons that have the same outcome can be chained. -/
theorem compare_trans {α : Type} [Ord α] [TransOrd α] {a b c : α} (h : compare a b = o)
    (h' : compare b c = o) : compare a c = o := by
  cases o with
  | lt => exact Std.TransCmp.lt_trans h h'
  | eq => exact Std.TransCmp.eq_trans h h'
  | gt => exact Std.TransCmp.gt_trans h h'

namespace Binary64

variable {u v w : Float}

/-- Floats have an order if both are numbers. -/
theorem compare?_eq_some_iff :
    compare? u v = some o ↔ ∃ a b, place? u = some a ∧ place? v = some b ∧ compare a b = o := by
  unfold compare?
  cases place? u <;> cases place? v <;> simp

/-- Floats that are swapped have the opposite order. -/
theorem compare?_swap (h : compare? u v = some o) : compare? v u = some o.swap := by
  obtain ⟨a, b, ha, hb, rfl⟩ := compare?_eq_some_iff.1 h
  exact compare?_eq_some_iff.2 ⟨b, a, hb, ha, Std.OrientedCmp.eq_swap⟩

/-- The order of floats goes on from one to the next. -/
theorem compare?_trans (h : compare? u v = some o) (h' : compare? v w = some o) :
    compare? u w = some o := by
  obtain ⟨a, b, ha, hb, hab⟩ := compare?_eq_some_iff.1 h
  obtain ⟨b', c, hb', hc, hbc⟩ := compare?_eq_some_iff.1 h'
  obtain rfl := Option.some.inj (hb.symm.trans hb')
  exact compare?_eq_some_iff.2 ⟨a, c, ha, hc, compare_trans hab hbc⟩

/-- Floats are the same just if they compare as equal, so that what is no number is not the same as
    itself. -/
theorem same_iff : same u v = true ↔ compare? u v = some .eq := beq_iff_eq

theorem same_trans (h : same u v = true) (h' : same v w = true) : same u w = true :=
  same_iff.2 (compare?_trans (same_iff.1 h) (same_iff.1 h'))

end Binary64

namespace Predicate

variable {x y z : Value}

/-! ## Values with an order -/

/-- The order of two values, if they have one. -/
inductive Ordered : Value → Value → Ordering → Prop where
  | texts {a b : String} {o : Ordering} (h : compare a b = o) : Ordered (.str a) (.str b) o
  | numbers {x y : Value} {u v : Float} {o : Ordering} (hx : x.float? = some u) (hy : y.float? = some v)
      (h : Binary64.compare? u v = some o) : Ordered x y o

/-- Values that are swapped have the opposite order. -/
theorem Ordered.swap (h : Ordered x y o) : Ordered y x o.swap := by
  cases h with
  | texts h => exact .texts (h ▸ Std.OrientedCmp.eq_swap)
  | numbers hx hy h => exact .numbers hy hx (Binary64.compare?_swap h)

/-- The order of values goes on from one to the next. -/
theorem Ordered.trans (h : Ordered x y o) (h' : Ordered y z o) : Ordered x z o := by
  cases h with
  | texts h =>
    cases h' with
    | texts h' => exact .texts (compare_trans h h')
    | numbers hy => cases hy
  | numbers hx hy h =>
    cases h' with
    | texts => cases hy
    | numbers hy' hz h' =>
      obtain rfl := Option.some.inj (hy.symm.trans hy')
      exact .numbers hx hz (Binary64.compare?_trans h h')

/-- A table has no order. -/
theorem not_ordered_map {entries : List (String × Value)} : ¬ Ordered (.map entries) y o := by
  rintro (_ | ⟨hx⟩)
  cases hx

/-- The order of two values is found just if they have one. -/
theorem order_eq_ok_iff (operator : String) : order operator x y = .ok o ↔ Ordered x y o := by
  constructor
  · intro h
    unfold order at h
    split at h
    · exact .texts (Except.ok.inj h)
    · split at h
      · next u v hx hy =>
        cases hcompare : Binary64.compare? u v with
        | none =>
          rw [hcompare] at h
          cases h
        | some o' =>
          rw [hcompare] at h
          cases h
          exact .numbers hx hy hcompare
      · cases h
  · intro h
    cases h with
    | texts h => exact congrArg Except.ok h
    | numbers hx hy h =>
      unfold order
      split
      · cases hx
      · rw [hx, hy]
        dsimp only
        rw [h]
        rfl

/-- Values are equal if their order says so, or if they are maps with the same entries. -/
theorem equal_iff : equal x y = true ↔
    Ordered x y .eq ∨ ∃ as bs, x = .map as ∧ y = .map bs ∧ Value.sameEntries as bs = true := by
  constructor
  · intro h
    unfold equal at h
    split at h
    · exact .inl (.texts (Std.compare_eq_iff_eq.2 (eq_of_beq h)))
    · exact .inr ⟨_, _, rfl, rfl, h⟩
    · split at h
      · next hx hy => exact .inl (.numbers hx hy (Binary64.same_iff.1 h))
      · cases h
  · rintro (h | ⟨as, bs, rfl, rfl, h⟩)
    · cases h with
      | texts h => exact beq_iff_eq.2 (Std.compare_eq_iff_eq.1 h)
      | numbers hx hy h =>
        unfold equal
        split
        · cases hx
        · cases hx
        · rw [hx, hy]
          exact Binary64.same_iff.2 h
    · exact h

/-! ## Entries of maps -/

mutual

/-- Values that are the same, type and all, can be chained; for maps by way of their entries. -/
theorem Value.same_trans {x y z : Value} (h : x.same y = true) (h' : y.same z = true) :
    x.same z = true := by
  match x, y, z with
  | .int a, .int b, .int c => exact beq_iff_eq.2 ((beq_iff_eq.1 h).trans (beq_iff_eq.1 h'))
  | .float u, .float v, .float w => exact Binary64.same_trans h h'
  | .str a, .str b, .str c => exact beq_iff_eq.2 ((beq_iff_eq.1 h).trans (beq_iff_eq.1 h'))
  | .bool a, .bool b, .bool c => exact beq_iff_eq.2 ((beq_iff_eq.1 h).trans (beq_iff_eq.1 h'))
  | .map as, .map bs, .map cs => exact Value.sameEntries_trans h h'

/-- Having the same entries goes on from one table to the next. -/
theorem Value.sameEntries_trans {as bs cs : List (String × Value)}
    (h : Value.sameEntries as bs = true) (h' : Value.sameEntries bs cs = true) :
    Value.sameEntries as cs = true := by
  match as, bs, cs with
  | [], [], [] => rfl
  | (a, x) :: as, (b, y) :: bs, (c, z) :: cs =>
    simp only [Value.sameEntries, Bool.and_eq_true, beq_iff_eq] at h h' ⊢
    exact ⟨⟨h.1.1.trans h'.1.1, Value.same_trans h.1.2 h'.1.2⟩, Value.sameEntries_trans h.2 h'.2⟩

end

/-- Equality goes on from one value to the next. -/
theorem equal_trans (h : equal x y = true) (h' : equal y z = true) : equal x z = true := by
  rcases equal_iff.1 h with hxy | ⟨as, bs, rfl, rfl, has⟩
  · rcases equal_iff.1 h' with hyz | ⟨as, bs, rfl, -⟩
    · exact equal_iff.2 (.inl (hxy.trans hyz))
    · exact absurd hxy.swap not_ordered_map
  · rcases equal_iff.1 h' with hyz | ⟨_, cs, hbs, rfl, hcs⟩
    · exact absurd hyz not_ordered_map
    · cases hbs
      exact equal_iff.2 (.inr ⟨as, cs, rfl, rfl, Value.sameEntries_trans has hcs⟩)

/-! ## Comparisons -/

/-- Two values have one order at most. -/
theorem Ordered.unique {o' : Ordering} (h : Ordered x y o) (h' : Ordered x y o') : o = o' :=
  Except.ok.inj (((order_eq_ok_iff "<").2 h).symm.trans ((order_eq_ok_iff "<").2 h'))

/-- Where there is an order, equality is what it says. -/
theorem Ordered.equal_eq (h : Ordered x y o) : equal x y = o.isEq := by
  have hequal : equal x y = true ↔ o = .eq := by
    rw [equal_iff]
    constructor
    · rintro (heq | ⟨as, bs, rfl, -⟩)
      · exact h.unique heq
      · exact absurd h not_ordered_map
    · rintro rfl
      exact .inl h
  rw [Bool.eq_iff_iff, hequal]
  cases o <;> decide

/-- The comparisons by order. -/
def CompareOp.byOrder : List CompareOp := [.less, .lessEqual, .greater, .greaterEqual]

/-- A comparison by order has an answer just if the values have an order, which then gives it. -/
theorem compareBy_byOrder_iff {op : CompareOp} (hop : op ∈ CompareOp.byOrder) {answer : Bool} :
    compareBy op x y = .ok answer ↔ ∃ o, Ordered x y o ∧ op.says? o = some answer := by
  have hmap (f : Ordering → Bool) (operator : String) :
      (order operator x y).map f = .ok answer ↔ ∃ o, Ordered x y o ∧ some (f o) = some answer := by
    simp only [← order_eq_ok_iff operator]
    cases order operator x y <;> simp [Except.map]
  cases op with
  | less | lessEqual | greater | greaterEqual => exact hmap _ _
  | equal | notEqual | within | notWithin | matching => exact absurd hop (by decide)

/-- Where there is an order, each of the six comparisons says what it does. -/
theorem Ordered.compareBy_eq (h : Ordered x y o) {op : CompareOp} {answer : Bool}
    (hsaid : op.says? o = some answer) : compareBy op x y = .ok answer := by
  cases op with
  | equal =>
    cases hsaid
    exact congrArg Except.ok h.equal_eq
  | notEqual =>
    cases hsaid
    show Except.ok (!equal x y) = _
    rw [h.equal_eq]
    cases o <;> rfl
  | less | lessEqual | greater | greaterEqual =>
    exact (compareBy_byOrder_iff (by decide)).2 ⟨o, h, hsaid⟩
  | within | notWithin | matching => cases hsaid

/-- Operators that go by the order say what it says. -/
theorem Ordered.compareBy_iff (h : Ordered x y o) {op : CompareOp} (hop : (op.says? o).isSome = true)
    (answer : Bool) : compareBy op x y = .ok answer ↔ op.says? o = some answer := by
  obtain ⟨said, hsaid⟩ := Option.isSome_iff_exists.1 hop
  rw [h.compareBy_eq hsaid, hsaid, Except.ok.injEq, Option.some.injEq]

/-- The comparison has an answer. -/
def CompareOp.Succeeds (op : CompareOp) (x y : Value) : Prop := ∃ answer, compareBy op x y = .ok answer

/-- An operator that goes by the order succeeds just if there is one. -/
theorem succeeds_iff {op : CompareOp} (hop : op ∈ CompareOp.byOrder) :
    op.Succeeds x y ↔ ∃ o, Ordered x y o := by
  constructor
  · rintro ⟨answer, h⟩
    obtain ⟨o, ho, -⟩ := (compareBy_byOrder_iff hop).1 h
    exact ⟨o, ho⟩
  · rintro ⟨o, ho⟩
    have hsome : ∀ op ∈ CompareOp.byOrder, (op.says? o).isSome = true := by cases o <;> decide
    obtain ⟨answer, hanswer⟩ := Option.isSome_iff_exists.1 (hsome op hop)
    exact ⟨answer, ho.compareBy_eq hanswer⟩

/-! ## Laws -/

/-- What the comparisons of two values say fits together. -/
structure Consistent (x y : Value) : Prop where
  /-- Equality always has an answer, and its negation the other one. -/
  equal : ∃ answer, compareBy .equal x y = .ok answer ∧ compareBy .notEqual x y = .ok !answer
  /-- There is an order for two texts, and for two numbers of any type. -/
  succeeds : CompareOp.less.Succeeds x y ↔ ∃ o, Ordered x y o
  /-- The comparisons by order have all an answer or all none, also with the values swapped. -/
  together : ∀ op ∈ CompareOp.byOrder, ∀ op' ∈ CompareOp.byOrder,
    (op.Succeeds x y ↔ op'.Succeeds x y) ∧ (op.Succeeds x y ↔ op'.Succeeds y x)
  /-- One of less, equal and greater holds, and only one. -/
  trichotomy : CompareOp.less.Succeeds x y →
    ∃! op, op ∈ [CompareOp.less, .equal, .greater] ∧ compareBy op x y = .ok true
  lessEqual : CompareOp.less.Succeeds x y → (compareBy .lessEqual x y = .ok true ↔
    compareBy .less x y = .ok true ∨ compareBy .equal x y = .ok true)
  greaterEqual : compareBy .greaterEqual x y = .ok true ↔ compareBy .lessEqual y x = .ok true

/-- Of less, equal and greater, an order says of exactly one that it holds. -/
theorem existsUnique_holds (o : Ordering) :
    ∃! op, op ∈ [CompareOp.less, .equal, .greater] ∧ op.says? o = some true := by
  cases o with
  | lt => exact ⟨.less, by decide, by rintro (_ | _ | _) <;> decide⟩
  | eq => exact ⟨.equal, by decide, by rintro (_ | _ | _) <;> decide⟩
  | gt => exact ⟨.greater, by decide, by rintro (_ | _ | _) <;> decide⟩

theorem consistent (x y : Value) : Consistent x y where
  equal := ⟨equal x y, rfl, rfl⟩
  succeeds := succeeds_iff (by decide)
  together := by
    intro op hop op' hop'
    rw [succeeds_iff hop, succeeds_iff hop', succeeds_iff hop']
    exact ⟨Iff.rfl, fun ⟨o, h⟩ => ⟨o.swap, h.swap⟩, fun ⟨o, h⟩ => ⟨o.swap, h.swap⟩⟩
  trichotomy := by
    intro hless
    obtain ⟨o, h⟩ := (succeeds_iff (by decide)).1 hless
    refine (existsUnique_congr fun op => and_congr_right fun hop => ?_).2 (existsUnique_holds o)
    refine h.compareBy_iff ?_ true
    revert op
    cases o <;> decide
  lessEqual := by
    intro hless
    obtain ⟨o, h⟩ := (succeeds_iff (by decide)).1 hless
    have hiff {op : CompareOp} (hop : (op.says? o).isSome = true) := h.compareBy_iff hop true
    rw [hiff (by cases o <;> rfl), hiff (by cases o <;> rfl), hiff (by cases o <;> rfl)]
    cases o <;> decide
  greaterEqual := by
    rw [compareBy_byOrder_iff (by decide), compareBy_byOrder_iff (by decide)]
    have hswap (o : Ordering) :
        CompareOp.lessEqual.says? o.swap = CompareOp.greaterEqual.says? o := by cases o <;> rfl
    constructor
    · rintro ⟨o, h, hgreater⟩
      exact ⟨o.swap, h.swap, (hswap o).trans hgreater⟩
    · rintro ⟨o, h, hless⟩
      exact ⟨o.swap, h.swap, by rwa [← hswap, Ordering.swap_swap]⟩

/-- The comparisons of two values fit together, and less and equal are transitive for values of all
    types. -/
theorem comparisons_consistent (x y z : Value) :
    Consistent x y ∧
    (compareBy .less x y = .ok true → compareBy .less y z = .ok true →
      compareBy .less x z = .ok true) ∧
    (compareBy .equal x y = .ok true → compareBy .equal y z = .ok true →
      compareBy .equal x z = .ok true) := by
  have hless {x y : Value} : compareBy .less x y = .ok true ↔ Ordered x y .lt := by
    rw [compareBy_byOrder_iff (by decide)]
    constructor
    · rintro ⟨_ | _ | _, h, hsaid⟩
      · exact h
      · cases hsaid
      · cases hsaid
    · intro h
      exact ⟨.lt, h, rfl⟩
  refine ⟨consistent x y, fun h h' => ?_, fun h h' => ?_⟩
  · exact hless.2 ((hless.1 h).trans (hless.1 h'))
  · exact congrArg Except.ok (equal_trans (Except.ok.inj h) (Except.ok.inj h'))

/-- A truth value, one and a half and two are in order; a truth value, an integer and a float are equal. -/
theorem comparisons_consistent_mixed :
    Consistent (.bool true) (.float (Float.ofBits 0x3FF8000000000000)) ∧
    compareBy .less (.bool true) (.float (Float.ofBits 0x3FF8000000000000)) = .ok true ∧
    compareBy .less (.float (Float.ofBits 0x3FF8000000000000)) (.int 2) = .ok true ∧
    compareBy .less (.bool true) (.int 2) = .ok true ∧
    compareBy .equal (.bool true) (.int 1) = .ok true ∧
    compareBy .equal (.int 1) (.float (Float.ofBits 0x3FF0000000000000)) = .ok true ∧
    compareBy .equal (.bool true) (.float (Float.ofBits 0x3FF0000000000000)) = .ok true := by
  obtain ⟨hconsistent, hless, -⟩ := comparisons_consistent (.bool true)
    (.float (Float.ofBits 0x3FF8000000000000)) (.int 2)
  obtain ⟨-, -, hequal⟩ := comparisons_consistent (.bool true) (.int 1)
    (.float (Float.ofBits 0x3FF0000000000000))
  exact ⟨hconsistent, rfl, rfl, hless rfl rfl, rfl, rfl, hequal rfl rfl⟩

end Predicate

end RuleSieve
