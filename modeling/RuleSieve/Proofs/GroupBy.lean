/-
  Grouping by a name.

  Elements are put into a table one by one, each at the end of the list under its name (`groupBy`).
  The groups then are what bears each name, in the order in which it came (`find?_groupBy`), and one
  after the other they are the stable sort by the name, where names are compared byte by byte
  (`flatMap_groupBy`).
-/
import RuleSieve.Proofs.ByteOrder
import RuleSieve.Proofs.Table

namespace RuleSieve

variable {α : Type} {key : α → String} {xs ys : List α}

/-! ## Sorting -/

/-- The elements in the order of their names, byte by byte; those of one name keep their order. -/
def sortBy (key : α → String) (xs : List α) : List α :=
  xs.mergeSort fun x y => Text.bytes (key x) ≤ Text.bytes (key y)

theorem sortBy_perm (key : α → String) (xs : List α) : (sortBy key xs).Perm xs :=
  List.mergeSort_perm xs _

theorem bytes_le_trans (x y z : α)
    (hxy : decide (Text.bytes (key x) ≤ Text.bytes (key y)) = true)
    (hyz : decide (Text.bytes (key y) ≤ Text.bytes (key z)) = true) :
    decide (Text.bytes (key x) ≤ Text.bytes (key z)) = true := by
  rw [decide_eq_true_eq, Text.bytes_le_iff] at hxy hyz ⊢
  exact String.le_trans hxy hyz

theorem bytes_le_total (x y : α) :
    (decide (Text.bytes (key x) ≤ Text.bytes (key y)) ||
      decide (Text.bytes (key y) ≤ Text.bytes (key x))) = true := by
  simpa [Text.bytes_le_iff] using String.le_total (key x) (key y)

theorem sortBy_ordered (key : α → String) (xs : List α) :
    (sortBy key xs).Pairwise fun x y => key x ≤ key y := by
  have h : (sortBy key xs).Pairwise fun x y =>
      decide (Text.bytes (key x) ≤ Text.bytes (key y)) = true :=
    List.pairwise_mergeSort bytes_le_trans bytes_le_total xs
  exact h.imp fun hle => (Text.bytes_le_iff _ _).1 (of_decide_eq_true hle)

/-- The elements of a name keep their order. -/
theorem filter_sortBy (key : α → String) (xs : List α) (name : String) :
    (sortBy key xs).filter (fun x => key x == name) = xs.filter fun x => key x == name := by
  have hordered : (xs.filter fun x => key x == name).Pairwise fun x y =>
      decide (Text.bytes (key x) ≤ Text.bytes (key y)) = true := by
    refine List.pairwise_of_forall_mem_list fun x hx y hy => ?_
    rw [List.mem_filter, beq_iff_eq] at hx hy
    simp [hx.2, hy.2]
  have hsublist : (xs.filter fun x => key x == name).Sublist (sortBy key xs) :=
    List.sublist_mergeSort bytes_le_trans bytes_le_total hordered List.filter_sublist
  have hfilter := hsublist.filter fun x => key x == name
  simp only [List.filter_filter, Bool.and_self] at hfilter
  exact (hfilter.eq_of_length ((sortBy_perm key xs).filter _).length_eq.symm).symm

/-- Ordered lists with the same elements of each name, in the same order, are the same. -/
theorem eq_of_filter_eq (hxs : xs.Pairwise fun x y => key x ≤ key y)
    (hys : ys.Pairwise fun x y => key x ≤ key y)
    (h : ∀ name, xs.filter (fun x => key x == name) = ys.filter fun x => key x == name) :
    xs = ys := by
  have hmem : ∀ x, x ∈ xs ↔ x ∈ ys := by
    intro x
    have hx : x ∈ xs.filter (fun y => key y == key x) ↔ x ∈ ys.filter fun y => key y == key x := by
      rw [h]
    simpa using hx
  induction xs generalizing ys with
  | nil =>
    cases ys with
    | nil => rfl
    | cons y ys => exact absurd ((hmem y).2 List.mem_cons_self) List.not_mem_nil
  | cons x xs ih =>
    cases ys with
    | nil => exact absurd ((hmem x).1 List.mem_cons_self) List.not_mem_nil
    | cons y ys =>
      obtain ⟨hx, hxrest⟩ := List.pairwise_cons.1 hxs
      obtain ⟨hy, hyrest⟩ := List.pairwise_cons.1 hys
      -- each of the first elements has the least name
      have hxy : key x ≤ key y := by
        rcases List.mem_cons.1 ((hmem y).2 List.mem_cons_self) with rfl | hmem
        · exact String.le_refl _
        · exact hx y hmem
      have hyx : key y ≤ key x := by
        rcases List.mem_cons.1 ((hmem x).1 List.mem_cons_self) with rfl | hmem
        · exact String.le_refl _
        · exact hy x hmem
      have hkey : key y = key x := String.le_antisymm hyx hxy
      have hfirst := h (key x)
      rw [List.filter_cons_of_pos (by simp), List.filter_cons_of_pos (by simp [hkey])] at hfirst
      obtain ⟨rfl, -⟩ := List.cons.inj hfirst
      have hrest : ∀ name, xs.filter (fun z => key z == name) = ys.filter fun z => key z == name := by
        intro name
        have hname := h name
        rw [List.filter_cons, List.filter_cons] at hname
        split at hname
        · exact (List.cons.inj hname).2
        · exact hname
      refine congrArg (x :: ·) (ih hxrest hyrest hrest fun z => ?_)
      have hz : z ∈ xs.filter (fun w => key w == key z) ↔ z ∈ ys.filter fun w => key w == key z := by
        rw [hrest]
      simpa using hz

/-- What is ordered and keeps the elements of each name is the sorted list. -/
theorem eq_sortBy (hys : ys.Pairwise fun x y => key x ≤ key y)
    (h : ∀ name, ys.filter (fun x => key x == name) = xs.filter fun x => key x == name) :
    ys = sortBy key xs :=
  eq_of_filter_eq hys (sortBy_ordered key xs) fun name => by rw [h, filter_sortBy]

/-! ## Grouping -/

namespace Dict

/-- The elements in a table, in lists under their names. -/
def groupBy (key : α → String) (xs : List α) : Dict (List α) :=
  xs.foldl (fun groups x => groups.alter (key x) fun group => group.getD [] ++ [x]) []

theorem groupBy_eq (key : α → String) (xs : List α) :
    groupBy key xs = (xs.map fun x => (key x, x)).foldl push [] := by
  rw [List.foldl_map]
  rfl

theorem sorted_groupBy (key : α → String) (xs : List α) : (groupBy key xs).Sorted := by
  rw [groupBy_eq]
  exact Sorted.foldl_push _ List.Pairwise.nil

/-- Under a name stands what bears it, if anything does. -/
theorem find?_groupBy (key : α → String) (xs : List α) (name : String) :
    (groupBy key xs).find? name =
      if xs.filter (fun x => key x == name) = [] then none
      else some (xs.filter fun x => key x == name) := by
  have hunder : valuesUnder name (xs.map fun x => (key x, x)) =
      xs.filter fun x => key x == name := by
    rw [valuesUnder, List.filter_map, List.map_map]
    exact List.map_id _
  rw [groupBy_eq, find?_foldl_push name _ List.Pairwise.nil, hunder]
  rfl

/-- A group is what bears its name, and it is not empty. -/
theorem mem_groupBy_iff {name : String} {group : List α} :
    (name, group) ∈ groupBy key xs ↔
      group = xs.filter (fun x => key x == name) ∧ group ≠ [] := by
  rw [(sorted_groupBy key xs).mem_iff, find?_groupBy]
  split
  · next hnone =>
    rw [hnone]
    exact iff_of_false nofun fun h => h.2 h.1
  · next hsome =>
    rw [Option.some.injEq, eq_comm]
    exact ⟨fun h => ⟨h, h ▸ hsome⟩, And.left⟩

theorem key_of_mem_groupBy :
    ∀ entry ∈ groupBy key xs, ∀ x ∈ entry.2, key x = entry.1 := by
  rintro ⟨name, group⟩ hentry x hx
  rw [mem_groupBy_iff] at hentry
  rw [hentry.1, List.mem_filter, beq_iff_eq] at hx
  exact hx.2

/-- The groups have the names that something bears. -/
theorem mem_names_groupBy {name : String} :
    name ∈ (groupBy key xs).names ↔ ∃ x ∈ xs, key x = name := by
  simp only [names, List.mem_map, Prod.exists, mem_groupBy_iff, exists_and_right, exists_eq_right,
    ne_eq, exists_eq_left, List.filter_eq_nil_iff, beq_iff_eq, not_forall, not_not, exists_prop]

/-- The groups one after the other are ordered by their names. -/
theorem flatMap_groupBy_ordered (key : α → String) (xs : List α) :
    ((groupBy key xs).flatMap (·.2)).Pairwise fun x y => key x ≤ key y := by
  rw [List.pairwise_flatMap]
  constructor
  · intro entry hentry
    refine List.pairwise_of_forall_mem_list fun x hx y hy => ?_
    have hkey : key x = key y :=
      (key_of_mem_groupBy entry hentry x hx).trans (key_of_mem_groupBy entry hentry y hy).symm
    exact hkey ▸ String.le_refl _
  · refine List.Pairwise.imp_of_mem (fun {a b} ha hb hlt x hx y hy => ?_) (sorted_groupBy key xs)
    rw [key_of_mem_groupBy a ha x hx, key_of_mem_groupBy b hb y hy]
    exact String.not_lt.1 fun hgt => String.lt_irrefl _ (String.lt_trans hlt hgt)

/-- What bears a name stands in the groups in the order in which it came. -/
theorem filter_flatMap_groupBy (key : α → String) (xs : List α) (name : String) :
    ((groupBy key xs).flatMap (·.2)).filter (fun x => key x == name) =
      xs.filter fun x => key x == name := by
  rw [(sorted_groupBy key xs).filter_flatMap key_of_mem_groupBy, find?_groupBy]
  split
  · next hnone => exact hnone.symm
  · rfl

/-- The groups one after the other are the elements sorted by their names. -/
theorem flatMap_groupBy (key : α → String) (xs : List α) :
    (groupBy key xs).flatMap (·.2) = sortBy key xs :=
  eq_sortBy (flatMap_groupBy_ordered key xs) (filter_flatMap_groupBy key xs)

end Dict

end RuleSieve
