/-
  Runs of digits.

  A number is a sign, a mark of its base and a run of digits.  Signs and marks are cut off and dropped
  only where they are, so that what is left is the run that was written behind them.  A run is read to
  its end, or refused at the first character that is no digit, or given up as too large before that;
  in base ten the last is said by the leading digits alone.
-/
import Mathlib.Data.List.Basic
import Mathlib.Tactic.ByContra
import Mathlib.Tactic.SplitIfs
import RuleSieve.Proofs.Separators

namespace RuleSieve.NumberText

open Decimal (isDigit cutSign)

variable {base : Nat} {cs : List Char}

/-! ## Signs and marks -/

/-- Nothing, or one of the two signs. -/
def IsSign (cs : List Char) : Prop := cs = [] ∨ cs = ['+'] ∨ cs = ['-']

/-- What is cut off in front is a sign or nothing. -/
theorem exists_sign (cs : List Char) : ∃ sign, IsSign sign ∧ cs = sign ++ (cutSign cs).2 ∧
    (cutSign cs).1 = decide (sign = ['-']) := by
  unfold cutSign
  split
  · exact ⟨['-'], .inr (.inr rfl), rfl, rfl⟩
  · exact ⟨['+'], .inr (.inl rfl), rfl, rfl⟩
  · exact ⟨[], .inl rfl, rfl, rfl⟩

/-- A sign is cut off where no second one follows. -/
theorem cutSign_append {sign : List Char} (hsign : IsSign sign) {c : Char} (hplus : c ≠ '+')
    (hminus : c ≠ '-') (cs : List Char) :
    cutSign (sign ++ c :: cs) = (decide (sign = ['-']), c :: cs) := by
  rcases hsign with rfl | rfl | rfl
  · rw [List.nil_append, cutSign]
    · rfl
    · rintro rest h
      exact hminus (List.cons.inj h).1
    · rintro rest h
      exact hplus (List.cons.inj h).1
  · rfl
  · rfl

/-- Nothing, or a mark of the base, perhaps with an underscore behind it. -/
def IsMark (base : Nat) (cs : List Char) : Prop :=
  cs = [] ∨ ∃ mark ∈ baseMarks base, cs = mark ∨ cs = mark ++ ['_']

/-- Is the character a digit of the base? -/
def IsDigit (base : Nat) (c : Char) : Prop := (digitIn? base c).isSome = true

instance : DecidablePred (IsDigit base) :=
  fun c => inferInstanceAs (Decidable ((digitIn? base c).isSome = true))

theorem not_isDigit_underscore (base : Nat) : ¬ IsDigit base '_' := Bool.false_ne_true

theorem IsDigit.ne_sign {c : Char} (h : IsDigit base c) : c ≠ '+' ∧ c ≠ '-' := by
  constructor <;> rintro rfl <;> exact Bool.false_ne_true h

/-- A mark is a zero and a letter that is no digit of the base. -/
theorem baseMarks_cases {mark : List Char} (h : mark ∈ baseMarks base) :
    ∃ c, mark = ['0', c] ∧ ¬ IsDigit base c ∧ c ≠ '_' := by
  unfold baseMarks at h
  split at h
  · rcases List.mem_pair.1 h with rfl | rfl
    · exact ⟨'x', rfl, by decide, by decide⟩
    · exact ⟨'X', rfl, by decide, by decide⟩
  · rcases List.mem_pair.1 h with rfl | rfl
    · exact ⟨'o', rfl, by decide, by decide⟩
    · exact ⟨'O', rfl, by decide, by decide⟩
  · rcases List.mem_pair.1 h with rfl | rfl
    · exact ⟨'b', rfl, by decide, by decide⟩
    · exact ⟨'B', rfl, by decide, by decide⟩
  · cases h

/-- What is dropped in front is a mark of the base or nothing. -/
theorem exists_mark (base : Nat) (cs : List Char) :
    ∃ mark, IsMark base mark ∧ cs = mark ++ dropBaseMark base cs := by
  unfold dropBaseMark
  have hfound {rest : List Char} (h : (baseMarks base).findSome? (Text.dropStart? · cs) = some rest) :
      ∃ mark ∈ baseMarks base, cs = mark ++ rest := by
    obtain ⟨mark, hmark, hdrop⟩ := List.exists_of_findSome?_eq_some h
    exact ⟨mark, hmark, Text.dropStart?_eq_some_iff.1 hdrop⟩
  split
  · next rest h =>
    obtain ⟨mark, hmark, rfl⟩ := hfound h
    exact ⟨mark ++ ['_'], .inr ⟨mark, hmark, .inr rfl⟩, by simp⟩
  · next rest _ h =>
    obtain ⟨mark, hmark, heq⟩ := hfound h
    exact ⟨mark, .inr ⟨mark, hmark, .inl rfl⟩, heq⟩
  · exact ⟨[], .inl rfl, rfl⟩

/-- No mark is found where the digits begin, and behind a mark nothing but an underscore is left out. -/
theorem dropBaseMark_append {mark run : List Char} (hmark : IsMark base mark)
    (hrun : Spaced (IsDigit base) run) : dropBaseMark base (mark ++ run) = run := by
  rcases hmark with rfl | ⟨mark, hmem, hcases⟩
  · have hnone : (baseMarks base).findSome? (Text.dropStart? · run) = none := by
      refine List.findSome?_eq_none_iff.2 fun mark hmem => ?_
      by_contra hsome
      obtain ⟨rest, hdrop⟩ := Option.ne_none_iff_exists'.1 hsome
      obtain ⟨c, rfl, hc, hplain⟩ := baseMarks_cases hmem
      rw [Text.dropStart?_eq_some_iff.1 hdrop] at hrun
      cases hrun with
      | mark => exact hplain rfl
      | cons _ h =>
        obtain ⟨d, rest, heq, hd, -⟩ := h.head (not_isDigit_underscore base)
        exact hc ((List.cons.inj heq).1 ▸ hd)
    rw [List.nil_append, dropBaseMark, hnone]
  · -- all marks have two characters, so each of them that is found leaves the same rest
    have hfind (cs : List Char) :
        (baseMarks base).findSome? (Text.dropStart? · (mark ++ cs)) = some cs := by
      have hsome : ((baseMarks base).findSome? (Text.dropStart? · (mark ++ cs))).isSome = true := by
        refine List.findSome?_isSome_iff.2 ⟨mark, hmem, ?_⟩
        rw [Text.dropStart?_eq_some_iff.2 rfl, Option.isSome_some]
      obtain ⟨rest, hrest⟩ := Option.isSome_iff_exists.1 hsome
      obtain ⟨other, hother, hdrop⟩ := List.exists_of_findSome?_eq_some hrest
      obtain ⟨c, rfl, -, -⟩ := baseMarks_cases hmem
      obtain ⟨d, rfl, -, -⟩ := baseMarks_cases hother
      have heq := Text.dropStart?_eq_some_iff.1 hdrop
      have hsame : cs = rest := (List.cons.inj (List.cons.inj heq).2).2
      rw [hrest, hsame]
    rcases hcases with rfl | rfl
    · obtain ⟨c, rest, rfl, -, hc⟩ := hrun.head (not_isDigit_underscore base)
      rw [dropBaseMark, hfind]
      split
      · next h => exact absurd (List.cons.inj (Option.some.inj h)).1 hc
      · next h => exact (Option.some.inj h).symm
      · next h => cases h
    · rw [dropBaseMark, List.append_assoc, hfind]
      rfl

/-- The sign of a number is cut off, for what follows it begins with a digit. -/
theorem cutSign_parts {sign mark run : List Char} (hsign : IsSign sign) (hmark : IsMark base mark)
    (hrun : Spaced (IsDigit base) run) :
    cutSign (sign ++ (mark ++ run)) = (decide (sign = ['-']), mark ++ run) := by
  have hbody : ∃ c rest, mark ++ run = c :: rest ∧ c ≠ '+' ∧ c ≠ '-' := by
    rcases hmark with rfl | ⟨mark, hmem, hcases⟩
    · obtain ⟨c, rest, rfl, hc, -⟩ := hrun.head (not_isDigit_underscore base)
      exact ⟨c, rest, rfl, hc.ne_sign⟩
    · obtain ⟨c, rfl, -, -⟩ := baseMarks_cases hmem
      rcases hcases with rfl | rfl <;> exact ⟨'0', _, rfl, by decide, by decide⟩
  obtain ⟨c, rest, heq, hplus, hminus⟩ := hbody
  rw [heq, cutSign_append hsign hplus hminus]

/-! ## Runs of digits -/

theorem isDigit_cons {c : Char} :
    (∀ d ∈ c :: cs, IsDigit base d) ↔ ∃ d, digitIn? base c = some d ∧ ∀ d ∈ cs, IsDigit base d := by
  rw [List.forall_mem_cons, IsDigit, Option.isSome_iff_exists, exists_and_right]

/-- Digits are ASCII letters and the ten digits. -/
theorem isDigit_range {c : Char} (h : IsDigit base c) :
    48 ≤ c.toNat ∧ c.toNat ≤ 57 ∨ 97 ≤ c.toNat ∧ c.toNat ≤ 122 ∨ 65 ≤ c.toNat ∧ c.toNat ≤ 90 := by
  have hrange {a b : Char} (h : (a ≤ c && c ≤ b) = true) : a.toNat ≤ c.toNat ∧ c.toNat ≤ b.toNat := by
    obtain ⟨hlow, hhigh⟩ := Bool.and_eq_true_iff.1 h
    exact ⟨of_decide_eq_true hlow, of_decide_eq_true hhigh⟩
  unfold IsDigit digitIn? at h
  split_ifs at h with hdigit hlower hupper
  · exact .inl (hrange hdigit)
  · exact .inr (.inl (hrange hlower))
  · exact .inr (.inr (hrange hupper))
  · cases h

/-- A run that is read to its end has digits only, and a run in which something is wrong before it gets
    too large has not. -/
theorem readRun_cases (limit n : Nat) (cs : List Char) :
    readRun base limit n cs = .tooLarge ∨
      (∃ m, readRun base limit n cs = .value m) ∧ (∀ c ∈ cs, IsDigit base c) ∨
      readRun base limit n cs = .invalid ∧ ¬ ∀ c ∈ cs, IsDigit base c := by
  induction cs generalizing n with
  | nil => exact .inr (.inl ⟨⟨n, rfl⟩, fun _ h => absurd h List.not_mem_nil⟩)
  | cons c cs ih =>
    rw [readRun, isDigit_cons]
    cases hd : digitIn? base c with
    | none => exact .inr (.inr ⟨rfl, by simp⟩)
    | some d =>
      dsimp only
      split
      · exact .inl rfl
      · simpa using ih (n * base + d)

theorem isDigit_bounds {c : Char} (hc : isDigit c = true) : 48 ≤ c.toNat ∧ c.toNat ≤ 57 := by
  obtain ⟨hlow, hhigh⟩ := Bool.and_eq_true_iff.1 hc
  exact ⟨of_decide_eq_true hlow, of_decide_eq_true hhigh⟩

/-- In base ten the digits are the decimal ones. -/
theorem digitIn?_ten (c : Char) :
    digitIn? 10 c = if isDigit c then some (Decimal.digitValue c) else none := by
  have hletter (first : Nat) :
      (some (c.toNat - first + 10)).filter (fun d => decide (d < 10)) = none :=
    Option.filter_some_neg (by simp)
  show Option.filter (fun d => decide (d < 10))
    (if isDigit c = true then some (Decimal.digitValue c) else _) = _
  by_cases hc : isDigit c = true
  · have hlt : Decimal.digitValue c < 10 := by
      have hle := (isDigit_bounds hc).2
      show c.toNat - 48 < 10
      omega
    rw [if_pos hc, if_pos hc]
    exact Option.filter_some_pos (decide_eq_true hlt)
  · rw [if_neg hc, if_neg hc]
    split
    · exact hletter _
    · split
      · exact hletter _
      · rfl

theorem valueFrom_cons (n : Nat) (c : Char) (cs : List Char) :
    Decimal.valueFrom n (c :: cs) = Decimal.valueFrom (n * 10 + Decimal.digitValue c) cs := by
  rw [Decimal.valueFrom, Decimal.valueFrom, List.foldl_cons]

/-- More digits make no number smaller. -/
theorem le_valueFrom (n : Nat) (cs : List Char) : n ≤ Decimal.valueFrom n cs := by
  induction cs generalizing n with
  | nil => exact Nat.le_refl n
  | cons c cs ih =>
    rw [valueFrom_cons]
    have := ih (n * 10 + Decimal.digitValue c)
    omega

/-- In base ten a run is too large just if its leading digits are. -/
theorem readRun_eq_tooLarge_iff {limit n : Nat} (hn : n ≤ limit) (cs : List Char) :
    readRun 10 limit n cs = .tooLarge ↔
      limit < Decimal.valueFrom n (cs.takeWhile isDigit) := by
  induction cs generalizing n with
  | nil => exact iff_of_false (by simp [readRun]) (Nat.not_lt.2 hn)
  | cons c cs ih =>
    rw [readRun, digitIn?_ten, List.takeWhile_cons]
    by_cases hc : isDigit c = true
    · rw [if_pos hc, if_pos hc, valueFrom_cons]
      dsimp only
      split
      · next hlarge => exact iff_of_true rfl (Nat.lt_of_lt_of_le hlarge (le_valueFrom _ _))
      · next hfits => exact ih (Nat.not_lt.1 hfits)
    · rw [if_neg hc, if_neg hc]
      exact iff_of_false (by simp) (Nat.not_lt.2 hn)

theorem isDigit_ten {c : Char} : IsDigit 10 c ↔ isDigit c = true := by
  rw [IsDigit, digitIn?_ten]
  split
  · next h => exact iff_of_true rfl h
  · next h => exact iff_of_false Bool.false_ne_true h

end RuleSieve.NumberText
