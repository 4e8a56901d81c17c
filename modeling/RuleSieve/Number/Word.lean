/-
  Powers of two and ten, and the integers that have room in 64 bits.
-/
namespace RuleSieve

/-- Two to a power. -/
def twoTo (n : Nat) : Nat := Nat.pow 2 n

/-- Ten to a power. -/
def tenTo (n : Nat) : Nat := Nat.pow 10 n

theorem twoTo_pos (n : Nat) : 0 < twoTo n := Nat.pow_pos (by decide)

namespace Word

/-- The number of words of 64 bits. -/
def count : Nat := 0x10000000000000000

/-- The words from here on have their first bit set. -/
def half : Nat := 0x8000000000000000

/-- Is there room for the integer in 64 bits, one of which is for the sign? -/
def Fits (n : Int) : Prop := -(half : Int) ≤ n ∧ n < half

instance (n : Int) : Decidable (Fits n) := inferInstanceAs (Decidable (_ ∧ _))

/-- The integer in 64 bits, if there is room for it. -/
def ofInt? (n : Int) : Option Int64 := if Fits n then some (Int64.ofInt n) else none

/-- The integer that 64 bits stand for has room in them. -/
theorem fits_toInt (w : Int64) : Fits w.toInt := ⟨w.le_toInt, w.toInt_lt⟩

/-- The integer in 64 bits is the one that was put there. -/
theorem ofInt?_eq_some_iff {n : Int} {w : Int64} : ofInt? n = some w ↔ w.toInt = n := by
  constructor
  · intro h
    simp only [ofInt?, Option.ite_none_right_eq_some, Option.some.injEq] at h
    obtain ⟨hn, rfl⟩ := h
    exact Int64.toInt_ofInt_of_le hn.1 hn.2
  · rintro rfl
    simp only [ofInt?, if_pos (fits_toInt w), Int64.ofInt_toInt]

/-- The sum of two counts in 64 bits.  Where it has no room there, nothing comes of an addition that is
    checked, and one that is not keeps what is left of the sum. -/
def add? (checked : Bool) (m n : Nat) : Option Nat :=
  if m + n < count then some (m + n) else if checked then none else some ((m + n) % count)

/-- The nearest integer that has room in 64 bits. -/
def clamp (n : Int) : Int64 := Int64.ofInt (max (-half) (min n (half - 1)))

/-- What has room stays what it is. -/
theorem clamp_of_fits {n : Int} (h : Fits n) : clamp n = Int64.ofInt n := by
  have h₁ : min n (half - 1) = n := Int.min_eq_left (by have := h.2; omega)
  have h₂ : max (-(half : Int)) n = n := Int.max_eq_right h.1
  rw [clamp, h₁, h₂]

end Word

end RuleSieve
