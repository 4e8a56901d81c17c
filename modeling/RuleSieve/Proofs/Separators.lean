/-
  Underscores between the characters of a number.

  An underscore may stand between two characters, never at an end and never beside another one
  (`WellMarked`).  With at least one character, and all but the underscores of one kind, the text is
  built from the left, character by character (`Spaced`); and those are the texts whose underscores
  can be dropped.
-/
import RuleSieve.NumberText

namespace RuleSieve.NumberText

variable {cs ds : List Char}

/-- Fine characters, at least one of them, with at most one underscore between two. -/
inductive Spaced (fine : Char → Prop) : List Char → Prop
  | one {c : Char} (hc : fine c) : Spaced fine [c]
  | cons {c : Char} {cs : List Char} (hc : fine c) (h : Spaced fine cs) : Spaced fine (c :: cs)
  | mark {c : Char} {cs : List Char} (hc : fine c) (h : Spaced fine cs) : Spaced fine (c :: '_' :: cs)

/-- No underscore is at an end or beside another one. -/
structure WellMarked (cs : List Char) : Prop where
  head : cs.head? ≠ some '_'
  last : cs.getLast? ≠ some '_'
  single : hasDoubleMark cs = false

/-- Separators are dropped just if none stands at an end and no two stand together. -/
theorem dropMarks?_eq_some_iff :
    dropMarks? cs = some ds ↔ WellMarked cs ∧ cs.filter (· != '_') = ds := by
  unfold dropMarks?
  split
  · next h =>
    refine iff_of_false (by simp) fun ⟨hmarked, _⟩ => ?_
    simp [hmarked.head, hmarked.last, hmarked.single] at h
  · next h =>
    have hmarked : WellMarked cs := by
      simp only [Bool.or_eq_true, decide_eq_true_eq, not_or, Bool.not_eq_true] at h
      exact ⟨h.1.1, h.1.2, h.2⟩
    simp [hmarked]

theorem hasDoubleMark_cons {c : Char} (hc : c ≠ '_') (cs : List Char) :
    hasDoubleMark (c :: cs) = hasDoubleMark cs := by
  rw [hasDoubleMark]
  rintro rest h -
  exact hc h

theorem WellMarked.cons {c : Char} (hc : c ≠ '_') (h : WellMarked cs) : WellMarked (c :: cs) := by
  refine ⟨by simpa using hc, ?_, ?_⟩
  · cases cs with
    | nil => simpa using hc
    | cons d cs => simpa using h.last
  · rw [hasDoubleMark_cons hc]
    exact h.single

/-- An underscore may stand between two characters. -/
theorem wellMarked_mark {c d : Char} (hc : c ≠ '_') (hd : d ≠ '_') :
    WellMarked (c :: '_' :: d :: cs) ↔ WellMarked (d :: cs) := by
  have hdouble : hasDoubleMark (c :: '_' :: d :: cs) = hasDoubleMark (d :: cs) := by
    rw [hasDoubleMark_cons hc, hasDoubleMark]
    rintro rest - heq
    exact hd (List.cons.inj heq).1
  constructor
  · exact fun h => ⟨by simpa using hd, by simpa using h.last, hdouble.symm.trans h.single⟩
  · exact fun h => ⟨by simpa using hc, by simpa using h.last, hdouble.trans h.single⟩

section

variable {fine : Char → Prop}

/-- A run of spaced characters begins with one of them. -/
theorem Spaced.head (hmark : ¬ fine '_') (h : Spaced fine cs) :
    ∃ c rest, cs = c :: rest ∧ fine c ∧ c ≠ '_' := by
  cases h with
  | one hc | cons hc | mark hc => exact ⟨_, _, rfl, hc, fun h => hmark (h ▸ hc)⟩

/-- In a run of spaced characters the separators are where they may be. -/
theorem Spaced.wellMarked (hmark : ¬ fine '_') (h : Spaced fine cs) :
    WellMarked cs ∧ ∀ c ∈ cs, c ≠ '_' → fine c := by
  have hne {c : Char} (hc : fine c) : c ≠ '_' := fun h => hmark (h ▸ hc)
  induction h with
  | @one c hc =>
    refine ⟨⟨by simpa using hne hc, by simpa using hne hc, hasDoubleMark_cons (hne hc) []⟩,
      fun d hd _ => ?_⟩
    rwa [List.mem_singleton.1 hd]
  | cons hc _ ih =>
    exact ⟨ih.1.cons (hne hc), List.forall_mem_cons.2 ⟨fun _ => hc, ih.2⟩⟩
  | mark hc h ih =>
    obtain ⟨d, rest, rfl, -, hd⟩ := h.head hmark
    exact ⟨(wellMarked_mark (hne hc) hd).2 ih.1, List.forall_mem_cons.2
      ⟨fun _ => hc, List.forall_mem_cons.2 ⟨fun h => absurd rfl h, ih.2⟩⟩⟩

/-- Where the separators are where they may be, the other characters are spaced by them. -/
theorem WellMarked.spaced : ∀ {cs : List Char}, WellMarked cs → cs ≠ [] →
    (∀ c ∈ cs, c ≠ '_' → fine c) → Spaced fine cs
  | [], _, hne, _ => absurd rfl hne
  | [c], h, _, hfine => .one (hfine c (List.mem_singleton.2 rfl) (by simpa using h.head))
  | c :: d :: rest, h, _, hfine => by
    have hc : c ≠ '_' := by simpa using h.head
    obtain ⟨hfirst, hothers⟩ := List.forall_mem_cons.1 hfine
    by_cases hd : d = '_'
    · subst hd
      obtain ⟨-, hrest⟩ := List.forall_mem_cons.1 hothers
      match rest with
      | [] => exact absurd h.last (by simp)
      | e :: rest =>
        have he : e ≠ '_' := by
          rintro rfl
          have hdouble := h.single
          rw [hasDoubleMark_cons hc] at hdouble
          cases hdouble
        exact .mark (hfirst hc) (((wellMarked_mark hc he).1 h).spaced (List.cons_ne_nil _ _) hrest)
    · have htail : WellMarked (d :: rest) :=
        ⟨by simpa using hd, by simpa using h.last, (hasDoubleMark_cons hc _).symm.trans h.single⟩
      exact .cons (hfirst hc) (htail.spaced (List.cons_ne_nil _ _) hothers)

/-- Characters without separators are spaced. -/
theorem spaced_of_forall (hne : cs ≠ []) (h : ∀ c ∈ cs, fine c) :
    Spaced fine cs := by
  induction cs with
  | nil => exact absurd rfl hne
  | cons c cs ih =>
    obtain ⟨hc, hrest⟩ := List.forall_mem_cons.1 h
    cases cs with
    | nil => exact .one hc
    | cons d cs => exact .cons hc (ih (List.cons_ne_nil d cs) hrest)

/-- Without separators there is nothing to drop. -/
theorem dropMarks?_of_not_mem (h : '_' ∉ cs) : dropMarks? cs = some cs := by
  have hkept : cs.filter (· != '_') = cs :=
    List.filter_eq_self.2 fun c hc => by simpa using ne_of_mem_of_not_mem hc h
  cases cs with
  | nil => rfl
  | cons c cs =>
    have hspaced : Spaced (· ≠ '_') (c :: cs) :=
      spaced_of_forall (List.cons_ne_nil c cs) fun d hd => ne_of_mem_of_not_mem hd h
    exact dropMarks?_eq_some_iff.2 ⟨(hspaced.wellMarked (by simp)).1, hkept⟩

/-- Characters are spaced just if their underscores can be dropped and something fine is left. -/
theorem spaced_iff (hmark : ¬ fine '_') :
    Spaced fine cs ↔ ∃ ds, dropMarks? cs = some ds ∧ ds ≠ [] ∧ ∀ c ∈ ds, fine c := by
  simp only [dropMarks?_eq_some_iff]
  have hmem {c : Char} : c ∈ cs.filter (· != '_') ↔ c ∈ cs ∧ c ≠ '_' := by simp
  constructor
  · intro h
    obtain ⟨hmarked, hfine⟩ := h.wellMarked hmark
    obtain ⟨c, rest, rfl, -, hc⟩ := h.head hmark
    refine ⟨_, ⟨hmarked, rfl⟩, ?_, fun d hd => hfine d (hmem.1 hd).1 (hmem.1 hd).2⟩
    exact List.ne_nil_of_mem (hmem.2 ⟨List.mem_cons_self, hc⟩)
  · rintro ⟨_, ⟨hmarked, rfl⟩, hne, hfine⟩
    refine hmarked.spaced ?_ fun c hc hplain => hfine c (hmem.2 ⟨hc, hplain⟩)
    rintro rfl
    exact hne rfl

end

end RuleSieve.NumberText
