/-
  Integers that have no room in 64 bits.

  Such an integer becomes a float.  In base ten that is the float nearest to it (`wideMagnitude?_ten`);
  in another base the digits are added up in floats (`wideMagnitude?_eq_carried`), and what comes out
  can be another one.  So two bases read an integer alike where it has room in 64 bits, or where the
  float comes out the same (`readsAlike_iff`).
-/
import Mathlib.Data.List.Induction
import RuleSieve.Proofs.Accumulation
import RuleSieve.Proofs.Positional

namespace RuleSieve.NumberText

open Binary64 (nearest carried capped overflow roundNat)
open Decimal (isDigit)
open Predicate (Value)

variable {base : Nat} {cs : List Char}

/-! ## Digits that are added up -/

theorem runValue_concat {c : Char} {d : Nat} (h : digitIn? base c = some d) (cs : List Char) :
    runValue base (cs ++ [c]) = runValue base cs * base + d := by
  have hdigits : digitsIn base (cs ++ [c]) = digitsIn base cs ++ [d] := by
    rw [digitsIn, List.filterMap_append, List.filterMap_cons_some h]
    rfl
  rw [runValue, hdigits, List.reverse_append, List.reverse_singleton, List.singleton_append,
    Nat.ofDigits_cons, ← runValue, Nat.add_comm, Nat.mul_comm]

/-- In a base other than ten, what is read is what the digits are added up to. -/
theorem wideMagnitude?_eq_carried (hbase : 2 ≤ base ∧ base ≤ 36) (hten : base ≠ 10)
    (hcs : ∀ c ∈ cs, IsDigit base c) :
    wideMagnitude? base cs = some (nearest false (carried base (runValue base cs))) := by
  rw [wideMagnitude?, if_neg hten]
  -- the digits are added from the first to the last, so the last one is the last step
  induction cs using List.reverseRecOn with
  | nil =>
    rw [show runValue base [] = 0 from rfl, Binary64.carried_zero, ← Binary64.ofInt_natCast]
    rfl
  | append_singleton cs c ih =>
    obtain ⟨hcs, hc⟩ := List.forall_mem_append.1 hcs
    obtain ⟨d, hd⟩ := Option.isSome_iff_exists.1 (hc c List.mem_cons_self)
    rw [List.foldlM_append, ih hcs, runValue_concat hd,
      ← Binary64.nearest_carried_add (by omega) (by omega) _ (digit_lt hd),
      ← Binary64.ofInt_natCast base, ← Binary64.ofInt_natCast d]
    simp [hd]

/-! ## Digits that are read as a float -/

theorem value_eq_runValue (hcs : ∀ c ∈ cs, isDigit c = true) :
    Decimal.value cs = runValue 10 cs := by
  have hdigits : digitsIn 10 cs = cs.map Decimal.digitValue := by
    induction cs with
    | nil => rfl
    | cons c cs ih =>
      obtain ⟨hc, hcs⟩ := List.forall_mem_cons.1 hcs
      rw [digitsIn_cons (d := Decimal.digitValue c) (by rw [digitIn?_ten, if_pos hc]), ih hcs,
        List.map_cons]
  rw [runValue_eq_foldl, hdigits, List.foldl_map]
  rfl

/-- A number of more than 310 digits is too large for a float. -/
theorem overflow_le_of_digits {n : Nat} (h : 310 < (Decimal.digits n).length) : overflow ≤ n := by
  have hlength := (Nat.length_toDigits_le_iff (n := n) (b := 10) (k := 310) (by decide) (by decide)).not
  exact Nat.le_trans (by decide +kernel) (Nat.not_lt.1 (hlength.1 (Nat.not_le.2 h)))

theorem ofDecimal_natural (n : Nat) : Binary64.ofDecimal false n 0 = nearest false n := by
  unfold Binary64.ofDecimal
  dsimp only
  rw [← Binary64.ofRatio_one]
  split
  · next h =>
    have hzero : n = 0 := by
      simpa [show ¬ ((Decimal.digits n).length : Int) < -330 by omega] using h
    rw [hzero]
  · split
    · next h =>
      have hlarge := overflow_le_of_digits (n := n) (by omega)
      have hinfinite := Binary64.infinite_iff.2 (Binary64.twoTo_le_roundNat hlarge)
      rw [Binary64.ofRatio_one, nearest, Nat.min_eq_right hinfinite]
      rfl
    · exact congrArg (Binary64.ofRatio false · 1) (Nat.mul_one n)

/-- In base ten, what is read is the float nearest to the number. -/
theorem wideMagnitude?_ten (hne : cs ≠ []) (hcs : ∀ c ∈ cs, IsDigit 10 c) :
    wideMagnitude? 10 cs = some (nearest false (runValue 10 cs)) := by
  obtain ⟨c, cs, rfl⟩ := List.exists_cons_of_ne_nil hne
  have hdigits : ∀ d ∈ c :: cs, isDigit d = true := fun d hd => isDigit_ten.1 (hcs d hd)
  have hspan : ((c :: cs) ++ []).takeWhile isDigit = c :: cs ∧ ((c :: cs) ++ []).dropWhile isDigit = [] :=
    Text.span_append hdigits (by simp)
  rw [List.append_nil] at hspan
  rw [wideMagnitude?, if_pos rfl, readFloat_eq_readDigits (hdigits c List.mem_cons_self),
    Binary64.readDigits?, hspan.1, hspan.2, ← value_eq_runValue hdigits, ← ofDecimal_natural]
  show some (Binary64.ofDecimal false (Decimal.value ((c :: cs) ++ [])) (0 - 0)) = _
  rw [List.append_nil]
  rfl

/-! ## What is read -/

/-- The number whose nearest float is read of digits in the base, when they have no room in 64 bits. -/
def reading (base n : Nat) : Nat := if base = 10 then n else carried base n

theorem wideMagnitude?_eq (hbase : 2 ≤ base ∧ base ≤ 36) (hne : cs ≠ [])
    (hcs : ∀ c ∈ cs, IsDigit base c) :
    wideMagnitude? base cs = some (nearest false (reading base (runValue base cs))) := by
  by_cases hten : base = 10
  · subst hten
    exact wideMagnitude?_ten hne hcs
  · rw [reading, if_neg hten, wideMagnitude?_eq_carried hbase hten hcs]

/-- The value that is read of every spelling of an integer in the base. -/
def literal (base : Nat) (n : Int) : Value :=
  if Word.Fits n then .int (Int64.ofInt n) else .float (nearest (n < 0) (reading base n.natAbs))

theorem readSigned_eq {n : Int} {negative : Bool} (hbase : 2 ≤ base ∧ base ≤ 36) (hne : cs ≠ [])
    (hcs : ∀ c ∈ cs, IsDigit base c) (hn : n = signedNat negative (runValue base cs)) :
    readSigned base negative cs = some (literal base n) := by
  have hlimit := le_limit_iff hn
  rw [readSigned, literal]
  by_cases hfits : Word.Fits n
  · rw [if_pos (hlimit.2 hfits), if_pos hfits, hn]
    rfl
  · have hnonzero : n ≠ 0 := by
      rintro rfl
      exact hfits (by decide)
    rw [if_neg (mt hlimit.1 hfits), if_neg hfits, wideMagnitude?_eq hbase hne hcs, Option.map_some]
    cases negative with
    | true =>
      have hnegative : n = -(runValue base cs : Int) := hn
      rw [if_pos rfl, Binary64.neg_nearest, decide_eq_true (by omega),
        show n.natAbs = runValue base cs by omega]
    | false =>
      have hpositive : n = (runValue base cs : Int) := hn
      rw [if_neg Bool.false_ne_true, decide_eq_false (by omega),
        show n.natAbs = runValue base cs by omega]

/-- Every spelling of an integer in a base is read to the same value. -/
theorem read?_eq_literal {base : Option Nat} (hbase : 2 ≤ base.getD 10 ∧ base.getD 10 ≤ 36)
    {text : String} {strip : Bool} {n : Int} (htext : Holds text strip cs)
    (hcs : Spells (base.getD 10) n cs) : read? text strip base = some (literal (base.getD 10) n) := by
  obtain ⟨sign, mark, run, rfl, hsign, hmark, hrun, hn⟩ := hcs
  obtain ⟨ds, hds, hne, hdigits⟩ := (spaced_iff (not_isDigit_underscore (base.getD 10))).1 hrun
  obtain rfl : run.filter (· != '_') = ds := (dropMarks?_eq_some_iff.1 hds).2
  rw [read?_of_holds hbase hsign hmark hrun htext]
  refine readSigned_eq hbase hne hdigits ?_
  rw [runValue, digitsIn_filter]
  exact hn

/-! ## Integers in two bases -/

variable {base₁ base₂ : Option Nat} {n : Int}

/-- All spellings of the integer in the base are read as the value. -/
def ReadsAs (n : Int) (base : Option Nat) (v : Value) : Prop :=
  ∀ text strip cs, Holds text strip cs → Spells (base.getD 10) n cs → read? text strip base = some v

/-- All spellings of the integer in the one base and in the other are read as the same value. -/
def ReadsAlike (n : Int) (base₁ base₂ : Option Nat) : Prop :=
  ∃ v, ReadsAs n base₁ v ∧ ReadsAs n base₂ v

/-- All spellings of the integer in the base are read as the integer, or as the float nearest to it if it
    has no room in 64 bits. -/
def ReadsNearest (n : Int) (base : Option Nat) : Prop :=
  ReadsAs n base (if Word.Fits n then .int (Int64.ofInt n) else .float (Binary64.ofInt n))

theorem holds_toList (text : String) (strip : Bool) : Holds text strip text.toList :=
  ⟨[], [], [], [], by simp, fun _ h => absurd h List.not_mem_nil, fun _ h => absurd h List.not_mem_nil⟩

/-- Since every integer has a spelling in every base, there is no other value to read than that of the
    literal. -/
theorem readsAs_iff {base : Option Nat} (hbase : 2 ≤ base.getD 10 ∧ base.getD 10 ≤ 36) {v : Value} :
    ReadsAs n base v ↔ literal (base.getD 10) n = v := by
  constructor
  · intro h
    obtain ⟨cs, hcs⟩ := exists_spells hbase n
    have hholds : Holds (String.ofList cs) false cs := by
      simpa using holds_toList (String.ofList cs) false
    exact Option.some.inj ((read?_eq_literal hbase hholds hcs).symm.trans (h _ _ _ hholds hcs))
  · rintro rfl text strip cs htext hcs
    exact read?_eq_literal hbase htext hcs

/-- Literals in two bases are the same just if the integer has room in 64 bits, or the float is the
    same. -/
theorem literal_eq_iff {base' : Nat} : literal base n = literal base' n ↔
    Word.Fits n ∨ capped (reading base n.natAbs) = capped (reading base' n.natAbs) := by
  rw [literal, literal]
  by_cases hfits : Word.Fits n
  · rw [if_pos hfits, if_pos hfits]
    exact iff_of_true rfl (.inl hfits)
  · rw [if_neg hfits, if_neg hfits, Value.float.injEq, Binary64.nearest_eq_iff, or_iff_right hfits]

theorem literal_ten (n : Int) : literal 10 n =
    if Word.Fits n then .int (Int64.ofInt n) else .float (Binary64.ofInt n) := by
  rw [literal, Binary64.ofInt_eq]
  rfl

theorem alike_iff (h₁ : 2 ≤ base₁.getD 10 ∧ base₁.getD 10 ≤ 36)
    (h₂ : 2 ≤ base₂.getD 10 ∧ base₂.getD 10 ≤ 36) :
    ReadsAlike n base₁ base₂ ↔ Word.Fits n ∨
      capped (reading (base₁.getD 10) n.natAbs) = capped (reading (base₂.getD 10) n.natAbs) := by
  simp only [ReadsAlike, readsAs_iff h₁, readsAs_iff h₂, ← literal_eq_iff]
  exact ⟨fun ⟨v, hv₁, hv₂⟩ => hv₁.trans hv₂.symm, fun h => ⟨_, h, rfl⟩⟩

theorem nearest_iff {base : Option Nat} (hbase : 2 ≤ base.getD 10 ∧ base.getD 10 ≤ 36) :
    ReadsNearest n base ↔
      Word.Fits n ∨ capped (reading (base.getD 10) n.natAbs) = capped n.natAbs := by
  rw [ReadsNearest, ← literal_ten, readsAs_iff hbase, literal_eq_iff]
  rfl

theorem ne_ten_of_twoTo {k : Nat} (hmax : twoTo k ≤ 36) : twoTo k ≠ 10 := by
  have hk : k < 6 := by
    refine Nat.lt_of_not_le fun hge => ?_
    have hlarge : twoTo 6 ≤ twoTo k := Nat.pow_le_pow_right Nat.two_pos hge
    exact absurd (Nat.le_trans hlarge hmax) (by decide)
  have hall : ∀ k < 6, twoTo k ≠ 10 := by decide
  exact hall k hk

/-- In a base that is a power of two the float is the nearest one, unless the integer is misrounded and
    not too large. -/
theorem nearest_twoTo_iff {base : Option Nat} {k : Nat} (hk : 0 < k) (hbase : base.getD 10 = twoTo k)
    (hmax : base.getD 10 ≤ 36) :
    ReadsNearest n base ↔
      Word.Fits n ∨ ¬ Binary64.Misrounds (twoTo k) n.natAbs ∨ overflow ≤ n.natAbs := by
  have hten : twoTo k ≠ 10 := ne_ten_of_twoTo (hbase ▸ hmax)
  rw [nearest_iff ⟨hbase ▸ Binary64.one_lt_twoTo hk, hmax⟩, hbase, reading, if_neg hten,
    Binary64.capped_carried_iff hk]

/-- Two bases read an integer alike just if it has room in 64 bits, or its digits in the one base and in
    the other come to the same float; in base ten that is the float nearest to the integer.  Another base
    gives the nearest float just if its digits are added up to that.  In a base that is a power of two they
    are, unless the leading digits are halfway between two floats and are rounded down while something
    follows. -/
theorem readsAlike_iff (base₁ base₂ : Option Nat) (h₁ : 2 ≤ base₁.getD 10 ∧ base₁.getD 10 ≤ 36)
    (h₂ : 2 ≤ base₂.getD 10 ∧ base₂.getD 10 ≤ 36) (n : Int) :
    (ReadsAlike n base₁ base₂ ↔ Word.Fits n ∨
      capped (reading (base₁.getD 10) n.natAbs) = capped (reading (base₂.getD 10) n.natAbs)) ∧
    (ReadsNearest n base₁ ↔
      Word.Fits n ∨ capped (reading (base₁.getD 10) n.natAbs) = capped n.natAbs) ∧
    ∀ k, 0 < k → base₁.getD 10 = twoTo k → (ReadsNearest n base₁ ↔
      Word.Fits n ∨ ¬ Binary64.Misrounds (twoTo k) n.natAbs ∨ overflow ≤ n.natAbs) :=
  ⟨alike_iff h₁ h₂, nearest_iff h₁, fun _ hk hbase => nearest_twoTo_iff hk hbase h₁.2⟩

/-- The least integer that has no room in 64 bits is read alike in base 16 and in base ten. -/
theorem readsAlike_iff_half :
    ReadsAlike 9223372036854775808 (some 16) none ∧ ReadsNearest 9223372036854775808 (some 16) := by
  obtain ⟨halike, -, hnearest⟩ :=
    readsAlike_iff (some 16) none (by decide) (by decide) 9223372036854775808
  exact ⟨halike.2 (.inr (by decide +kernel)),
    (hnearest 4 (by decide) rfl).2 (.inr (.inl (by decide +kernel)))⟩

/-- The first fourteen digits in base 16 are halfway between two floats, and what stands behind them is
    dropped. -/
theorem not_readsAlike_midpoint :
    Spells 16 9223372036854776833 "0x8000000000000401".toList ∧
      Spells 10 9223372036854776833 "9223372036854776833".toList ∧
      read? "0x8000000000000401" false (some 16) = some (.float (Binary64.ofInt 9223372036854775808)) ∧
      read? "9223372036854776833" false none = some (.float (Binary64.ofInt 9223372036854777856)) ∧
      ¬ ReadsAlike 9223372036854776833 (some 16) none ∧
      ¬ ReadsNearest 9223372036854776833 (some 16) := by
  have hspells : Spells 16 9223372036854776833 "0x8000000000000401".toList :=
    ⟨[], ['0', 'x'], "8000000000000401".toList, by decide, .inl rfl,
      .inr ⟨['0', 'x'], by decide, .inl rfl⟩,
      spaced_of_forall (by decide) (List.all_eq_true.1 rfl), by decide⟩
  have hspells' : Spells 10 9223372036854776833 "9223372036854776833".toList :=
    ⟨[], [], "9223372036854776833".toList, by decide, .inl rfl, .inl rfl,
      spaced_of_forall (by decide) (List.all_eq_true.1 rfl), by decide⟩
  have hliteral : literal 16 9223372036854776833 = .float (Binary64.ofInt 9223372036854775808) := by
    rw [literal, if_neg (by decide), Binary64.ofInt_eq,
      show reading 16 (9223372036854776833 : Int).natAbs = 9223372036854775808 by decide +kernel]
    rfl
  have hliteral' : literal 10 9223372036854776833 = .float (Binary64.ofInt 9223372036854777856) := by
    rw [literal, if_neg (by decide), Binary64.ofInt_eq]
    exact congrArg Value.float (Binary64.nearest_eq_iff.2 (by decide +kernel))
  refine ⟨hspells, hspells', ?_, ?_, ?_, ?_⟩
  · rw [← hliteral]
    exact read?_eq_literal (by decide) (holds_toList _ _) hspells
  · rw [← hliteral']
    exact read?_eq_literal (by decide) (holds_toList _ _) hspells'
  · rw [alike_iff (by decide) (by decide)]
    decide +kernel
  · rw [nearest_iff (by decide)]
    decide +kernel

end RuleSieve.NumberText
