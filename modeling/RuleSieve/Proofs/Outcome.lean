/-
  How results and faults go through a computation.

  A computation ends with its first fault.  `fault?` keeps of an outcome nothing but the fault, so the
  fault of a computation over a list is what `List.findSome?` finds: that of the first element that
  has one.

  What goes through the parts of a tree is often a function of its own, beside the one that goes
  through the tree.  It is one of those that lists have anyway (`map_of_cons`, `flatMap_of_cons`).
-/
import Mathlib.Data.List.Forall2
import RuleSieve.Noted

namespace RuleSieve

/-! ## Lists of parts -/

section

variable {α β : Type}

/-- A function that goes through a list element by element is a map. -/
theorem map_of_cons {f : α → β} {g : List α → List β} (hnil : g [] = [])
    (hcons : ∀ x xs, g (x :: xs) = f x :: g xs) (xs : List α) : g xs = xs.map f := by
  induction xs with
  | nil => exact hnil
  | cons x xs ih => rw [hcons, ih, List.map_cons]

/-- A function that joins what it gives for each element is a flat map. -/
theorem flatMap_of_cons {f : α → List β} {g : List α → List β} (hnil : g [] = [])
    (hcons : ∀ x xs, g (x :: xs) = f x ++ g xs) (xs : List α) : g xs = xs.flatMap f := by
  induction xs with
  | nil => exact hnil
  | cons x xs ih => rw [hcons, ih, List.flatMap_cons]

end

/-! ## Outcomes -/

namespace Outcome

variable {ε α β : Type}

/-- The fault with which a computation ended, if it did. -/
def fault? : Except ε α → Option ε
  | .error e => some e
  | .ok _ => none

@[simp] theorem fault?_ok (a : α) : fault? (.ok a : Except ε α) = none := rfl

@[simp] theorem fault?_error (e : ε) : fault? (.error e : Except ε α) = some e := rfl

/-- The fault of a result is the error that it is. -/
theorem fault?_eq_some_iff {x : Except ε α} {e : ε} : fault? x = some e ↔ x = .error e := by
  cases x <;> simp

/-- A result without a fault is a value. -/
theorem fault?_eq_none_iff {x : Except ε α} : fault? x = none ↔ ∃ a, x = .ok a := by
  cases x <;> simp

theorem fault?_ne_none_iff {x : Except ε α} : fault? x ≠ none ↔ ∃ e, x = .error e := by
  cases x <;> simp

/-- What is done to a result leaves a fault alone. -/
theorem fault?_map (f : α → β) (x : Except ε α) : fault? (x.map f) = fault? x := by
  cases x <;> rfl

theorem map_eq_ok_iff {f : α → β} {x : Except ε α} {b : β} :
    x.map f = .ok b ↔ ∃ a, x = .ok a ∧ f a = b := by
  cases x <;> simp [Except.map]

theorem map_eq_error_iff {f : α → β} {x : Except ε α} {e : ε} : x.map f = .error e ↔ x = .error e := by
  cases x <;> simp [Except.map]

theorem elim_eq_ok_iff {e : ε} {x : Option α} {a : α} :
    x.elim (.error e) Except.ok = .ok a ↔ x = some a := by
  cases x <;> simp

theorem elim_eq_error_iff {e e' : ε} {x : Option α} :
    x.elim (.error e) Except.ok = .error e' ↔ x = none ∧ e = e' := by
  cases x <;> simp

theorem mapError_eq_ok_iff {ε' : Type} {f : ε → ε'} {x : Except ε α} {a : α} :
    x.mapError f = .ok a ↔ x = .ok a := by
  cases x <;> simp [Except.mapError]

/-- An error under another name comes from an error. -/
theorem mapError_eq_error_iff {ε' : Type} {f : ε → ε'} {x : Except ε α} {e' : ε'} :
    x.mapError f = .error e' ↔ ∃ e, x = .error e ∧ f e = e' := by
  cases x <;> simp [Except.mapError]

/-- A computation over a list ends with the fault of the first element that has one. -/
theorem fault?_mapM (f : α → Except ε β) (xs : List α) :
    fault? (xs.mapM f) = xs.findSome? fun x => fault? (f x) := by
  induction xs with
  | nil => rfl
  | cons x xs ih =>
    rw [List.mapM_cons, List.findSome?_cons, ← ih]
    cases f x with
    | error e => rfl
    | ok b => cases xs.mapM f <;> rfl

/-- Two steps give a value just if the first gives one and the second gives it from that. -/
theorem bind_eq_ok_iff {f : α → Except ε β} {x : Except ε α} {b : β} :
    x >>= f = .ok b ↔ ∃ a, x = .ok a ∧ f a = .ok b := by
  cases x <;> simp [bind, Except.bind]

/-- Two steps fail if the first does, or if the second does after it. -/
theorem bind_eq_error_iff {f : α → Except ε β} {x : Except ε α} {e : ε} :
    x >>= f = .error e ↔ x = .error e ∨ ∃ a, x = .ok a ∧ f a = .error e := by
  cases x <;> simp [bind, Except.bind]

/-- Two steps have no fault if neither has. -/
theorem fault?_bind_eq_none_iff {f : α → Except ε β} {x : Except ε α} :
    fault? (x >>= f) = none ↔ ∃ a, x = .ok a ∧ fault? (f a) = none := by
  cases x <;> simp [bind, Except.bind]

/-- Looking through lists that stand for the elements of a list. -/
theorem findSome?_flatMap {γ : Type} {f : α → List β} {g : β → Option γ} {k : α → Option γ}
    {xs : List α} (h : ∀ x ∈ xs, k x = (f x).findSome? g) :
    xs.findSome? k = (xs.flatMap f).findSome? g := by
  induction xs with
  | nil => rfl
  | cons x xs ih =>
    obtain ⟨hx, hxs⟩ := List.forall_mem_cons.1 h
    rw [List.findSome?_cons, List.flatMap_cons, List.findSome?_append, hx, ih hxs]
    cases (f x).findSome? g <;> rfl

/-- Of two ways of looking through a list, one that finds no more than the other one finds the same,
    unless it goes past what the other one found. -/
theorem findSome?_or_exists {f g : α → Option β} {xs : List α} {b : β}
    (h : xs.findSome? f = some b) (hnone : ∀ x ∈ xs, f x = none → g x = none) :
    xs.findSome? g = some b ∨ ∃ x ∈ xs, f x = some b ∧ g x ≠ some b := by
  induction xs with
  | nil => cases h
  | cons x xs ih =>
    obtain ⟨hx, hxs⟩ := List.forall_mem_cons.1 hnone
    rw [List.findSome?_cons] at h ⊢
    cases hf : f x with
    | none =>
      rw [hf] at h
      rw [hx hf]
      exact (ih h hxs).imp_right fun ⟨y, hy, hfound⟩ => ⟨y, List.mem_cons_of_mem x hy, hfound⟩
    | some c =>
      rw [hf] at h
      obtain rfl : c = b := Option.some.inj h
      by_cases hg : g x = some c
      · rw [hg]
        exact .inl rfl
      · exact .inr ⟨x, List.mem_cons_self, hf, hg⟩

/-- A computation over a list has a result just if every element has one. -/
theorem mapM_eq_ok_iff {f : α → Except ε β} {xs : List α} {ys : List β} :
    xs.mapM f = .ok ys ↔ List.Forall₂ (fun x y => f x = .ok y) xs ys := by
  induction xs generalizing ys with
  | nil =>
    rw [List.forall₂_nil_left_iff]
    exact ⟨fun h => (Except.ok.inj h).symm, fun h => congrArg Except.ok h.symm⟩
  | cons x xs ih =>
    rw [List.mapM_cons, bind_eq_ok_iff, List.forall₂_cons_left_iff]
    constructor
    · rintro ⟨y, hy, h⟩
      obtain ⟨ys', hys, h⟩ := bind_eq_ok_iff.1 h
      exact ⟨y, ys', hy, ih.1 hys, (Except.ok.inj h).symm⟩
    · rintro ⟨y, ys', hy, hys, rfl⟩
      exact ⟨y, hy, bind_eq_ok_iff.2 ⟨ys', ih.2 hys, rfl⟩⟩

/-- Steps that agree on the elements of a list agree on the list. -/
theorem mapM_congr {f g : α → Except ε β} {xs : List α} (h : ∀ x ∈ xs, f x = g x) :
    xs.mapM f = xs.mapM g := by
  induction xs with
  | nil => rfl
  | cons x xs ih =>
    obtain ⟨hx, hxs⟩ := List.forall_mem_cons.1 h
    rw [List.mapM_cons, List.mapM_cons, hx, ih hxs]

/-- What is done to each result of a computation over a list is done to the list of them. -/
theorem mapM_map {γ : Type} (f : α → Except ε β) (g : β → γ) (xs : List α) :
    (xs.mapM fun x => (f x).map g) = (xs.mapM f).map (List.map g) := by
  induction xs with
  | nil => rfl
  | cons x xs ih =>
    rw [List.mapM_cons, List.mapM_cons, ih]
    cases f x with
    | error e => rfl
    | ok y => cases xs.mapM f <;> rfl

/-- What is done to each fault of a computation over a list is done to its first fault. -/
theorem mapM_mapError {ε' : Type} (f : α → Except ε β) (g : ε → ε') (xs : List α) :
    (xs.mapM fun x => (f x).mapError g) = (xs.mapM f).mapError g := by
  induction xs with
  | nil => rfl
  | cons x xs ih =>
    rw [List.mapM_cons, List.mapM_cons, ih]
    cases f x with
    | error e => rfl
    | ok y => cases xs.mapM f <;> rfl

/-- The first fault of a list is that of an element with no fault before it. -/
theorem findSome?_fault?_eq_some_iff {f : α → Except ε β} {xs : List α} {e : ε} :
    (xs.findSome? fun x => fault? (f x)) = some e ↔
      ∃ before x after, xs = before ++ x :: after ∧ (∀ k ∈ before, ∃ y, f k = .ok y) ∧
        f x = .error e := by
  rw [List.findSome?_eq_some_iff]
  simp only [fault?_eq_some_iff, fault?_eq_none_iff]
  constructor
  · rintro ⟨before, x, after, hxs, hx, hbefore⟩
    exact ⟨before, x, after, hxs, hbefore, hx⟩
  · rintro ⟨before, x, after, hxs, hbefore, hx⟩
    exact ⟨before, x, after, hxs, hx, hbefore⟩

/-- Some element of a list has a fault just if the first fault exists. -/
theorem findSome?_fault?_ne_none_iff {f : α → Except ε β} {xs : List α} :
    (xs.findSome? fun x => fault? (f x)) ≠ none ↔ ∃ x ∈ xs, ∃ e, f x = .error e := by
  rw [ne_eq, List.findSome?_eq_none_iff]
  simp only [← fault?_ne_none_iff, not_forall, exists_prop, ne_eq]

/-- If elements at the same place agree, some element of one list has its property just if one of
    the other list has. -/
theorem exists_mem_iff_of_forall₂ {p : α → Prop} {q : β → Prop} {xs : List α} {ys : List β}
    (h : List.Forall₂ (fun x y => p x ↔ q y) xs ys) : (∃ x ∈ xs, p x) ↔ ∃ y ∈ ys, q y := by
  induction h with
  | nil => simp
  | cons hxy _ ih => rw [List.exists_mem_cons_iff, List.exists_mem_cons_iff, hxy, ih]

theorem forall_mem_iff_of_forall₂ {p : α → Prop} {q : β → Prop} {xs : List α} {ys : List β}
    (h : List.Forall₂ (fun x y => p x ↔ q y) xs ys) : (∀ x ∈ xs, p x) ↔ ∀ y ∈ ys, q y := by
  induction h with
  | nil => simp
  | cons hxy _ ih => rw [List.forall_mem_cons, List.forall_mem_cons, hxy, ih]

theorem forall_mem_of_forall₂ {q : β → Prop} {xs : List α} {ys : List β}
    (h : List.Forall₂ (fun _ y => q y) xs ys) : ∀ y ∈ ys, q y :=
  (forall_mem_iff_of_forall₂ (h.imp fun _ _ hq => iff_of_true trivial hq)).1 fun _ _ => trivial

/-- What stands at a place in one list goes with what stands there in the other one. -/
theorem getElem?_of_forall₂ {r : α → β → Prop} {xs : List α} {ys : List β}
    (h : List.Forall₂ r xs ys) {k : Nat} {x : α} (hx : xs[k]? = some x) :
    ∃ y, ys[k]? = some y ∧ r x y := by
  induction h generalizing k with
  | nil => cases hx
  | cons hxy _ ih =>
    cases k with
    | zero =>
      obtain rfl := Option.some.inj hx
      exact ⟨_, rfl, hxy⟩
    | succ k => exact ih hx

end Outcome

/-! ## Results with notes -/

namespace Noted

variable {α β : Type}

@[simp] theorem result_pure (a : α) : (pure a : Noted α).result = .ok a := rfl

@[simp] theorem result_ofExcept (x : Except Fault α) : (ofExcept x).result = x := rfl

/-- The notes have no part in the result. -/
theorem result_bind (x : Noted α) (f : α → Noted β) :
    (x >>= f).result = x.result >>= fun a => (f a).result := by
  show (andThen x f).result = _
  unfold andThen
  cases x.result <;> rfl

/-- Notes apart, two steps give a value just if both do. -/
theorem result_bind_eq_ok_iff {x : Noted α} {f : α → Noted β} {b : β} :
    (x >>= f).result = .ok b ↔ ∃ a, x.result = .ok a ∧ (f a).result = .ok b := by
  rw [result_bind, Outcome.bind_eq_ok_iff]

/-- Notes apart, two steps fail if the first does, or the second after it. -/
theorem result_bind_eq_error_iff {x : Noted α} {f : α → Noted β} {fault : Fault} :
    (x >>= f).result = .error fault ↔
      x.result = .error fault ∨ ∃ a, x.result = .ok a ∧ (f a).result = .error fault := by
  rw [result_bind, Outcome.bind_eq_error_iff]

/-- What is done to the result of two computations in turn is done at their end. -/
theorem map_result_bind_bind {γ δ : Type} (x : Noted α) (y : α → Noted β) (f : α → β → γ)
    (g : γ → δ) :
    (x >>= fun a => y a >>= fun b => pure (f a b)).result.map g =
      (x >>= fun a => y a >>= fun b => pure (g (f a b))).result := by
  rw [result_bind, result_bind]
  cases x.result with
  | error fault => rfl
  | ok a =>
    show (y a >>= _).result.map g = (y a >>= _).result
    rw [result_bind, result_bind]
    cases (y a).result <;> rfl

/-- What goes through a list one element after the other, and collects results and logs on the way, is
    a computation over the list. -/
theorem result_traverse {γ : Type} {f : γ → Noted (α × List β)} {g : List γ → Noted (List α × List β)}
    (hnil : g [] = pure ([], []))
    (hcons : ∀ x xs, g (x :: xs) = f x >>= fun one => g xs >>= fun more =>
      pure (one.1 :: more.1, one.2 ++ more.2)) (xs : List γ) :
    (g xs).result = (xs.mapM fun x => (f x).result).map fun outcomes =>
      (outcomes.map (·.1), outcomes.flatMap (·.2)) := by
  induction xs with
  | nil => rw [hnil]; rfl
  | cons x xs ih =>
    rw [hcons, result_bind, List.mapM_cons]
    cases (f x).result with
    | error fault => rfl
    | ok one =>
      show (g xs >>= _).result = _
      rw [result_bind, ih]
      show _ = Except.map _ (List.mapM _ xs >>= _)
      cases xs.mapM fun x => (f x).result <;> rfl

end Noted

end RuleSieve
