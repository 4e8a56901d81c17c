/-
  Chains of comparisons.

  A chain of comparisons holds if each of its links does, and it is evaluated as the conjunction of them:
  its first link stands before the chain of the others as the left operand of `and` stands before the
  right one (`eval_compare_cons`).  Conjunctions are associative, so a chain has the value, or the error,
  of the conjunction of its links from the left (`eval_compare_conjunction`).
-/
import RuleSieve.Predicate.Evaluation

namespace RuleSieve.Predicate

variable {scope : Scope}

/-! ## Conjunctions -/

theorem eval_and (scope : Scope) (left right : Term) :
    (Term.and left right).eval scope =
      left.eval scope >>= fun value => if value.truthy then right.eval scope else .ok value := by
  rw [Term.eval]
  rfl

theorem eval_and_of_error {left : Term} {e : Error} (h : left.eval scope = .error e) (right : Term) :
    (Term.and left right).eval scope = .error e := by
  rw [eval_and, h]
  rfl

theorem eval_and_of_ok {left : Term} {value : Value} (h : left.eval scope = .ok value) (right : Term) :
    (Term.and left right).eval scope = if value.truthy then right.eval scope else .ok value := by
  rw [eval_and, h]
  rfl

theorem eval_and_congr_right {right right' : Term} (h : right.eval scope = right'.eval scope)
    (left : Term) : (Term.and left right).eval scope = (Term.and left right').eval scope := by
  rw [eval_and, eval_and, h]

/-- It makes no difference how a conjunction of three terms is bracketed. -/
theorem eval_and_assoc (scope : Scope) (x y z : Term) :
    (Term.and (.and x y) z).eval scope = (Term.and x (.and y z)).eval scope := by
  cases hx : x.eval scope with
  | error e => rw [eval_and_of_error (eval_and_of_error hx y), eval_and_of_error hx]
  | ok value =>
    rw [eval_and_of_ok hx, eval_and, eval_and_of_ok hx]
    cases htruthy : value.truthy with
    | true => exact (eval_and scope y z).symm
    | false =>
      show (if value.truthy then _ else _) = _
      rw [htruthy]
      rfl

/-- The conjunction of terms, bracketed from the left. -/
def conjunction (first : Term) (rest : List Term) : Term := rest.foldl .and first

/-- The first term of a conjunction stands before the conjunction of the others. -/
theorem eval_conjunction_cons (scope : Scope) (first next : Term) (rest : List Term) :
    (conjunction first (next :: rest)).eval scope =
      (Term.and first (conjunction next rest)).eval scope := by
  induction rest generalizing first next with
  | nil => rfl
  | cons third rest ih =>
    calc (conjunction first (next :: third :: rest)).eval scope
        = (conjunction (.and first next) (third :: rest)).eval scope := rfl
      _ = (Term.and (.and first next) (conjunction third rest)).eval scope := ih ..
      _ = (Term.and first (.and next (conjunction third rest))).eval scope := eval_and_assoc ..
      _ = (Term.and first (conjunction next (third :: rest))).eval scope :=
        eval_and_congr_right (ih next third).symm first

/-! ## Chains -/

/-- The links of a chain, each of them a comparison of its own. -/
def linkTerms (first : Term) : List (CompareOp × Term) → List Term
  | [] => []
  | (op, operand) :: links => .compare first [(op, operand)] :: linkTerms operand links

theorem eval_compare_links (scope : Scope) (first : Term) (links : List (CompareOp × Term)) :
    (Term.compare first links).eval scope =
      first.eval scope >>= fun value => evalLinks scope value links := by
  rw [Term.eval]

/-- A chain is the conjunction of its first link and the chain of the others. -/
theorem eval_compare_cons (scope : Scope) (first : Term) (op : CompareOp) (operand : Term)
    (links : List (CompareOp × Term)) :
    (Term.compare first ((op, operand) :: links)).eval scope =
      (Term.and (.compare first [(op, operand)]) (.compare operand links)).eval scope := by
  simp only [eval_and, eval_compare_links, evalLinks]
  cases first.eval scope with
  | error e => rfl
  | ok v =>
    cases operand.eval scope with
    | error e => rfl
    | ok w =>
      show (compareBy op v w >>= _) = (compareBy op v w >>= _) >>= _
      cases compareBy op v w with
      | error e => rfl
      | ok holds => cases holds <;> rfl

/-- A chain is the conjunction of its links. -/
theorem eval_chain (scope : Scope) (first : Term) (op : CompareOp) (operand : Term)
    (links : List (CompareOp × Term)) :
    (Term.compare first ((op, operand) :: links)).eval scope =
      (conjunction (.compare first [(op, operand)]) (linkTerms operand links)).eval scope := by
  induction links generalizing first op operand with
  | nil => rfl
  | cons link links ih =>
    rw [eval_compare_cons, linkTerms, eval_conjunction_cons]
    exact eval_and_congr_right (ih operand link.1 link.2) _

/-! ## Where a chain stops -/

/-- The beginning of a chain decides, unless all links in it hold. -/
theorem eval_compare_append {first : Term} {before : List (CompareOp × Term)}
    (h : (Term.compare first before).eval scope ≠ .ok (.bool true))
    (after : List (CompareOp × Term)) :
    (Term.compare first (before ++ after)).eval scope = (Term.compare first before).eval scope := by
  induction before generalizing first with
  | nil =>
    -- no link can fail here, so it is the first operand that has no value
    rw [eval_compare_links] at h
    rw [List.nil_append, eval_compare_links, eval_compare_links]
    cases hfirst : first.eval scope with
    | error e => rfl
    | ok value =>
      rw [hfirst] at h
      exact absurd rfl h
  | cons link before ih =>
    rw [eval_compare_cons] at h
    rw [List.cons_append, eval_compare_cons, eval_compare_cons]
    cases hlink : (Term.compare first [(link.1, link.2)]).eval scope with
    | error e => rw [eval_and_of_error hlink, eval_and_of_error hlink]
    | ok value =>
      rw [eval_and_of_ok hlink] at h
      rw [eval_and_of_ok hlink, eval_and_of_ok hlink]
      cases htruthy : value.truthy with
      | true =>
        rw [htruthy] at h
        exact ih h
      | false => rfl

/-- If all links before an operand hold, its error is that of the chain. -/
theorem eval_compare_operand_error {first : Term} {before : List (CompareOp × Term)}
    (hbefore : (Term.compare first before).eval scope = .ok (.bool true)) {operand : Term} {e : Error}
    (h : operand.eval scope = .error e) (op : CompareOp) (after : List (CompareOp × Term)) :
    (Term.compare first (before ++ (op, operand) :: after)).eval scope = .error e := by
  induction before generalizing first with
  | nil =>
    rw [eval_compare_links] at hbefore
    rw [List.nil_append, eval_compare_links]
    cases hfirst : first.eval scope with
    | error e' =>
      rw [hfirst] at hbefore
      cases hbefore
    | ok value =>
      show evalLinks scope value ((op, operand) :: after) = _
      rw [evalLinks, h]
      rfl
  | cons link before ih =>
    rw [eval_compare_cons] at hbefore
    rw [List.cons_append, eval_compare_cons]
    cases hlink : (Term.compare first [(link.1, link.2)]).eval scope with
    | error e' =>
      rw [eval_and_of_error hlink] at hbefore
      cases hbefore
    | ok value =>
      rw [eval_and_of_ok hlink] at hbefore ⊢
      cases htruthy : value.truthy with
      | true =>
        rw [htruthy] at hbefore
        exact ih hbefore
      | false =>
        rw [htruthy] at hbefore
        cases hbefore
        cases htruthy

/-- A chain of comparisons has the value, or the error, of the conjunction of its links from the left.
    A beginning of it that is false or fails decides, whatever comes after it; and an operand that fails
    makes the chain fail, if all links before it hold. -/
theorem eval_compare_conjunction (scope : Scope) (first : Term) (op : CompareOp) (operand : Term)
    (links : List (CompareOp × Term)) :
    (Term.compare first ((op, operand) :: links)).eval scope =
      (conjunction (.compare first [(op, operand)]) (linkTerms operand links)).eval scope ∧
    (∀ before after, (op, operand) :: links = before ++ after →
      (Term.compare first before).eval scope ≠ .ok (.bool true) →
      (Term.compare first ((op, operand) :: links)).eval scope =
        (Term.compare first before).eval scope) ∧
    (∀ before op' operand' after, (op, operand) :: links = before ++ (op', operand') :: after →
      (Term.compare first before).eval scope = .ok (.bool true) →
      ∀ e, operand'.eval scope = .error e →
        (Term.compare first ((op, operand) :: links)).eval scope = .error e) := by
  refine ⟨eval_chain .., fun before after hsplit hnot => ?_, ?_⟩
  · rw [hsplit, eval_compare_append hnot]
  · intro before op' operand' after hsplit hbefore e herror
    rw [hsplit, eval_compare_operand_error hbefore herror]

/-- An unbound name behind a false link does not matter, but one behind a link that holds does. -/
theorem eval_compare_conjunction_unbound :
    (Term.compare (.literal (.int 1)) [(.less, .literal (.int 2)), (.greater, .literal (.int 3)),
      (.equal, .name "$Y")]).eval [] = .ok (.bool false) ∧
    (Term.compare (.literal (.int 1)) [(.less, .literal (.int 2)), (.equal, .name "$Y"),
      (.greater, .literal (.int 3))]).eval [] = .error (.unbound "$Y") := by
  have hholds : (Term.compare (.literal (.int 1)) [(.less, .literal (.int 2))]).eval [] =
      .ok (.bool true) := rfl
  have hstops : (Term.compare (.literal (.int 1)) [(.less, .literal (.int 2)),
      (.greater, .literal (.int 3))]).eval [] = .ok (.bool false) := rfl
  have hunbound : (Term.name "$Y").eval [] = .error (.unbound "$Y") := rfl
  constructor
  · obtain ⟨-, hbeginning, -⟩ := eval_compare_conjunction [] (.literal (.int 1)) .less
      (.literal (.int 2)) [(.greater, .literal (.int 3)), (.equal, .name "$Y")]
    refine (hbeginning [_, _] _ rfl ?_).trans hstops
    rw [hstops]
    simp
  · obtain ⟨-, -, hoperand⟩ := eval_compare_conjunction [] (.literal (.int 1)) .less
      (.literal (.int 2)) [(.equal, .name "$Y"), (.greater, .literal (.int 3))]
    exact hoperand [_] _ _ _ rfl hholds _ hunbound

end RuleSieve.Predicate
