/-
  Tables, by what is found in them.

  A table keeps its names in order through every change (`Sorted.alter`), and a sorted table is known
  by what is found under each name (`Sorted.ext`).  Values that are collected one by one, each into
  the list under its name, are found there in the order in which they came (`find?_foldl_push`).
-/
import Mathlib.Data.List.Sort
import RuleSieve.Dict

namespace RuleSieve.Dict

variable {α : Type}

/-- The names of the table increase. -/
def Sorted (d : Dict α) : Prop := d.Pairwise fun a b => a.1 < b.1

/-! ## Changing one value -/

/-- A table has no value under a name that is less than all of its names. -/
theorem find?_eq_none_of_lt {name : String} {d : Dict α} (h : ∀ entry ∈ d, name < entry.1) :
    find? name d = none := by
  induction d with
  | nil => rfl
  | cons entry d ih =>
    obtain ⟨key, value⟩ := entry
    have hlt : name < key := h _ List.mem_cons_self
    have hne : name ≠ key := fun he => String.lt_irrefl _ (he ▸ hlt)
    rw [find?, if_neg hne]
    exact ih fun entry he => h entry (List.mem_cons_of_mem _ he)

/-- What stands in the table after one value has changed: what stood there, or the changed value. -/
theorem mem_alter {name : String} {change : Option α → α} {d : Dict α} {entry : String × α}
    (h : entry ∈ alter name change d) :
    entry ∈ d ∨ ∃ old, entry = (name, change old) ∧ ∀ value, old = some value → (name, value) ∈ d := by
  induction d with
  | nil => exact .inr ⟨none, List.mem_singleton.1 h, fun _ hold => nomatch hold⟩
  | cons head d ih =>
    obtain ⟨key, value⟩ := head
    rw [alter] at h
    split at h
    · next hk =>
      subst hk
      rcases List.mem_cons.1 h with rfl | h
      · refine .inr ⟨some value, rfl, fun _ hold => ?_⟩
        rw [← Option.some.inj hold]
        exact List.mem_cons_self
      · exact .inl (List.mem_cons_of_mem _ h)
    · split at h
      · rcases List.mem_cons.1 h with rfl | h
        · exact .inr ⟨none, rfl, fun _ hold => nomatch hold⟩
        · exact .inl h
      · rcases List.mem_cons.1 h with rfl | h
        · exact .inl List.mem_cons_self
        · rcases ih h with h | ⟨old, hentry, hold⟩
          · exact .inl (List.mem_cons_of_mem _ h)
          · exact .inr ⟨old, hentry, fun v hv => List.mem_cons_of_mem _ (hold v hv)⟩

theorem Sorted.alter {d : Dict α} (hd : d.Sorted) (name : String) (change : Option α → α) :
    Sorted (Dict.alter name change d) := by
  induction d with
  | nil => exact List.pairwise_singleton _ _
  | cons head d ih =>
    obtain ⟨key, value⟩ := head
    obtain ⟨hhead, htail⟩ := List.pairwise_cons.1 hd
    rw [Dict.alter]
    split
    · exact List.pairwise_cons.2 ⟨hhead, htail⟩
    · next hne =>
      split
      · next hlt =>
        refine List.pairwise_cons.2 ⟨fun entry he => ?_, hd⟩
        rcases List.mem_cons.1 he with rfl | he
        · exact hlt
        · exact String.lt_trans hlt (hhead entry he)
      · next hge =>
        refine List.pairwise_cons.2 ⟨fun entry he => ?_, ih htail⟩
        rcases mem_alter he with he | ⟨old, rfl, -⟩
        · exact hhead entry he
        · -- the name was neither `key` nor less than it
          exact Decidable.byContradiction fun hle => hne (String.le_antisymm hle hge)

/-- What is found after one value of a table has changed. -/
theorem find?_alter {d : Dict α} (hd : d.Sorted) (name other : String) (change : Option α → α) :
    find? other (alter name change d) =
      if other = name then some (change (find? name d)) else find? other d := by
  induction d with
  | nil => rfl
  | cons head d ih =>
    obtain ⟨key, value⟩ := head
    obtain ⟨hhead, htail⟩ := List.pairwise_cons.1 hd
    rw [alter]
    split
    · next hk =>
      subst hk
      by_cases ho : other = name <;> simp [find?, ho]
    · next hne =>
      split
      · next hlt =>
        -- the names increase, so the name is not further down
        have hnone : find? name d = none :=
          find?_eq_none_of_lt fun entry he => String.lt_trans hlt (hhead entry he)
        simp [find?, hne, hnone]
      · rw [find?, ih htail]
        by_cases ho : other = name
        · subst ho
          simp [find?, hne]
        · simp [find?, ho]

/-- What is found in a table stands there. -/
theorem mem_of_find? {name : String} {value : α} {d : Dict α} (h : find? name d = some value) :
    (name, value) ∈ d := by
  induction d with
  | nil => cases h
  | cons head d ih =>
    obtain ⟨key, first⟩ := head
    rw [find?] at h
    split at h
    · next hk =>
      obtain rfl := Option.some.inj h
      exact hk ▸ List.mem_cons_self
    · exact List.mem_cons_of_mem _ (ih h)

/-- There is a value under each name of the table, and under no other one. -/
theorem has_iff {name : String} {d : Dict α} : d.has name = true ↔ name ∈ d.names := by
  induction d with
  | nil => simp [has, find?, names]
  | cons head d ih =>
    obtain ⟨key, value⟩ := head
    show _ ↔ name ∈ key :: names d
    rw [List.mem_cons, has, find?]
    split
    · next hname => exact iff_of_true rfl (.inl hname)
    · next hname => exact ih.trans (or_iff_right hname).symm

/-! ## What a sorted table holds -/

/-- What stands in the table is found there. -/
theorem Sorted.mem_iff {d : Dict α} (hd : d.Sorted) {name : String} {value : α} :
    (name, value) ∈ d ↔ find? name d = some value := by
  induction d with
  | nil => simp [find?]
  | cons head d ih =>
    obtain ⟨key, first⟩ := head
    obtain ⟨hhead, htail⟩ := List.pairwise_cons.1 hd
    rw [List.mem_cons, ih htail, find?]
    by_cases hname : name = key
    · -- the names increase, so this one is not further down
      subst hname
      simp [find?_eq_none_of_lt hhead, eq_comm]
    · simp [hname]

theorem Sorted.nodup {d : Dict α} (hd : d.Sorted) : List.Nodup d := by
  refine List.Pairwise.imp (fun {a b} hlt => ?_) hd
  rintro rfl
  exact String.lt_irrefl _ hlt

/-- Sorted tables in which the same is found are the same. -/
theorem Sorted.ext {d d' : Dict α} (hd : d.Sorted) (hd' : d'.Sorted)
    (h : ∀ name, find? name d = find? name d') : d = d' := by
  have hmem : ∀ entry, entry ∈ d ↔ entry ∈ d' := by
    rintro ⟨name, value⟩
    rw [hd.mem_iff, hd'.mem_iff, h]
  refine List.Perm.eq_of_pairwise (fun a b _ _ hab hba => ?_) hd hd'
    ((List.perm_ext_iff_of_nodup hd.nodup hd'.nodup).2 hmem)
  exact absurd (String.lt_trans hab hba) (String.lt_irrefl _)

/-- The table with other values under its names. -/
theorem find?_mapValues {β : Type} (f : α → β) (name : String) (d : Dict α) :
    find? name (d.map fun entry => (entry.1, f entry.2)) = (find? name d).map f := by
  induction d with
  | nil => rfl
  | cons head d ih =>
    obtain ⟨key, value⟩ := head
    rw [List.map_cons, find?, find?, ih]
    split <;> rfl

theorem Sorted.mapValues {β : Type} {d : Dict α} (hd : d.Sorted) (f : α → β) :
    Sorted (d.map fun entry => (entry.1, f entry.2)) :=
  List.pairwise_map.2 hd

/-! ## Collecting values -/

/-- The table with one more value in the list under its name. -/
def push (d : Dict (List α)) (entry : String × α) : Dict (List α) :=
  d.alter entry.1 fun values => values.getD [] ++ [entry.2]

/-- The values that come under a name, in order. -/
def valuesUnder (name : String) (entries : List (String × α)) : List α :=
  (entries.filter fun entry => entry.1 = name).map (·.2)

theorem Sorted.foldl_push (entries : List (String × α)) {d : Dict (List α)} (hd : d.Sorted) :
    Sorted (entries.foldl push d) := by
  induction entries generalizing d with
  | nil => exact hd
  | cons entry entries ih => exact ih (hd.alter _ _)

/-- Under each name stand the values that came under it, after those that were there; a name under
    which nothing came is as it was. -/
theorem find?_foldl_push (name : String) (entries : List (String × α)) {d : Dict (List α)}
    (hd : d.Sorted) :
    find? name (entries.foldl push d) =
      if valuesUnder name entries = [] then find? name d
      else some ((find? name d).getD [] ++ valuesUnder name entries) := by
  induction entries generalizing d with
  | nil => rfl
  | cons entry entries ih =>
    obtain ⟨key, value⟩ := entry
    have hpush : Sorted (push d (key, value)) := hd.alter _ _
    rw [List.foldl_cons, ih hpush, push, find?_alter hd]
    by_cases hname : key = name
    · -- the value goes to the end of its list, before the later values
      subst hname
      have hcons : valuesUnder key ((key, value) :: entries) = value :: valuesUnder key entries := by
        simp [valuesUnder]
      rw [hcons]
      by_cases hlater : valuesUnder key entries = []
      · simp [hlater]
      · simp [hlater]
    · have hskip : valuesUnder name ((key, value) :: entries) = valuesUnder name entries := by
        simp [valuesUnder, hname]
      rw [hskip, if_neg (Ne.symm hname)]

/-- In a table of lists in which each element belongs under its name, the elements that belong under a
    name are the list there. -/
theorem Sorted.filter_flatMap {β : Type} {d : Dict (List β)} (hd : d.Sorted) {key : β → String}
    (hkey : ∀ entry ∈ d, ∀ x ∈ entry.2, key x = entry.1) (name : String) :
    (d.flatMap (·.2)).filter (fun x => key x == name) = (find? name d).getD [] := by
  induction d with
  | nil => rfl
  | cons head d ih =>
    obtain ⟨first, group⟩ := head
    obtain ⟨hhead, htail⟩ := List.pairwise_cons.1 hd
    obtain ⟨hgroup, hrest⟩ := List.forall_mem_cons.1 hkey
    rw [List.flatMap_cons, List.filter_append, ih htail hrest, find?]
    by_cases hname : name = first
    · -- the names increase, so nothing further down belongs under this one
      subst hname
      have hall : group.filter (fun x => key x == name) = group :=
        List.filter_eq_self.2 fun x hx => beq_iff_eq.2 (hgroup x hx)
      rw [hall, find?_eq_none_of_lt hhead, if_pos rfl]
      exact List.append_nil group
    · have hnone : group.filter (fun x => key x == name) = [] := by
        refine List.filter_eq_nil_iff.2 fun x hx => ?_
        rw [beq_iff_eq, hgroup x hx]
        exact Ne.symm hname
      rw [hnone, if_neg hname, List.nil_append]

end RuleSieve.Dict

/-! ## Names -/

namespace RuleSieve

theorem mem_insertName {name other : String} {names : List String} :
    other ∈ insertName name names ↔ other = name ∨ other ∈ names := by
  induction names with
  | nil => rw [insertName, List.mem_singleton, or_iff_left List.not_mem_nil]
  | cons key names ih =>
    rw [insertName]
    split
    · next hkey =>
      subst hkey
      rw [List.mem_cons, or_self_left]
    · split
      · rw [List.mem_cons]
      · rw [List.mem_cons, List.mem_cons, ih, or_left_comm]

theorem mem_nameSet {name : String} {names : List String} : name ∈ nameSet names ↔ name ∈ names := by
  suffices h : ∀ set : List String,
      name ∈ names.foldl (fun set name => insertName name set) set ↔ name ∈ set ∨ name ∈ names by
    rw [nameSet, h, or_iff_right List.not_mem_nil]
  induction names with
  | nil => simp
  | cons first names ih =>
    intro set
    rw [List.foldl_cons, ih, mem_insertName, List.mem_cons, or_assoc, or_left_comm]

theorem mem_distinctNames {name : String} {names : List String} :
    name ∈ distinctNames names ↔ name ∈ names := by
  suffices h : ∀ seen : List String, name ∈ names.foldl
      (fun seen name => if seen.contains name then seen else seen ++ [name]) seen ↔
      name ∈ seen ∨ name ∈ names by
    rw [distinctNames, h, or_iff_right List.not_mem_nil]
  induction names with
  | nil => simp
  | cons first names ih =>
    intro seen
    rw [List.foldl_cons, ih, List.mem_cons]
    split
    · next hseen =>
      rw [List.contains_iff_mem] at hseen
      constructor
      · exact fun h => h.imp_right .inr
      · rintro (h | rfl | h)
        · exact .inl h
        · exact .inl hseen
        · exact .inr h
    · rw [List.mem_append, List.mem_singleton, or_assoc]

end RuleSieve
