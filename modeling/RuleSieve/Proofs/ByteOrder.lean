/-
  The order of texts by their bytes.

  Texts are compared character by character.  Byte by byte they are in the same order
  (`bytes_lt_iff`): the bytes of a greater character are greater, whatever comes after them
  (`bytes_lt_of_char_lt`), since the first byte already tells how many bytes a character has.
-/
import Mathlib.Data.List.Basic

namespace RuleSieve.Text

/-- The bytes of a text. -/
def bytes (s : String) : List UInt8 := s.toByteArray.data.toList

theorem bytes_eq (s : String) : bytes s = s.toList.flatMap String.utf8EncodeChar := by
  conv_lhs => rw [bytes, ← String.ofList_toList (s := s), String.toByteArray_ofList]
  rw [List.utf8Encode, List.data_toByteArray]

theorem append_lt_append_iff (bs xs ys : List UInt8) : bs ++ xs < bs ++ ys ↔ xs < ys := by
  induction bs with
  | nil => exact Iff.rfl
  | cons b bs ih =>
    have hirrefl : ¬ b < b := UInt8.lt_irrefl b
    rw [List.cons_append, List.cons_append, List.cons_lt_cons_iff, ih]
    simp [hirrefl]

/-- Of two bytes below 256 the order is that of the numbers. -/
theorem cons_lt_cons_ofNat {m n : Nat} (hm : m < 256) (hn : n < 256) (xs ys : List UInt8) :
    UInt8.ofNat m :: xs < UInt8.ofNat n :: ys ↔ m < n ∨ m = n ∧ xs < ys := by
  rw [List.cons_lt_cons_iff, UInt8.lt_iff_toNat_lt, ← UInt8.toNat_inj, UInt8.toNat_ofNat_of_lt' hm,
    UInt8.toNat_ofNat_of_lt' hn]

/-- A smaller number has the smaller quotient, or the same one and the smaller rest. -/
theorem digits_lt_of_lt {m n : Nat} (h : m < n) :
    m / 64 < n / 64 ∨ m / 64 = n / 64 ∧ m % 64 < n % 64 := by
  omega

/-- The bytes of a greater character are greater, whatever follows. -/
theorem bytes_lt_of_char_lt {c d : Char} (h : c < d) (xs ys : List UInt8) :
    String.utf8EncodeChar c ++ xs < String.utf8EncodeChar d ++ ys := by
  have hlt : c.val.toNat < d.val.toNat := h
  have hsize : d.val.toNat < 1114112 := by
    rcases d.valid with hd | ⟨-, hd⟩
    · exact Nat.lt_trans hd (by decide)
    · exact hd
  simp only [String.utf8EncodeChar]
  generalize c.val.toNat = m at hlt ⊢
  generalize d.val.toNat = n at hlt hsize ⊢
  -- the digits of both numbers in base 64, from the last one on
  have hlast := digits_lt_of_lt hlt
  have hthird := @digits_lt_of_lt (m / 64) (n / 64)
  have hsecond := @digits_lt_of_lt (m / 4096) (n / 4096)
  rw [Nat.div_div_eq_div_mul, Nat.div_div_eq_div_mul] at hthird hsecond
  have hm : m / 262144 % 8 = m / 262144 := Nat.mod_eq_of_lt (by omega)
  have hn : n / 262144 % 8 = n / 262144 := Nat.mod_eq_of_lt (by omega)
  split_ifs
  all_goals
    simp only [List.cons_append, List.nil_append]
    repeat rw [cons_lt_cons_ofNat (by omega) (by omega)]
    omega

theorem flatMap_lt_flatMap_iff (cs ds : List Char) :
    cs.flatMap String.utf8EncodeChar < ds.flatMap String.utf8EncodeChar ↔ cs < ds := by
  induction cs generalizing ds with
  | nil =>
    cases ds with
    | nil => simp
    | cons d ds =>
      obtain ⟨b, bs, hbytes⟩ := List.exists_cons_of_ne_nil (String.utf8EncodeChar_ne_nil (c := d))
      rw [List.flatMap_cons, hbytes]
      exact iff_of_true (List.nil_lt_cons b _) (List.nil_lt_cons d ds)
  | cons c cs ih =>
    cases ds with
    | nil => exact iff_of_false (List.not_lt_nil _) (List.not_lt_nil _)
    | cons d ds =>
      rw [List.flatMap_cons, List.flatMap_cons, List.cons_lt_cons_iff]
      rcases Std.lt_trichotomy c d with hlt | rfl | hgt
      · exact iff_of_true (bytes_lt_of_char_lt hlt _ _) (.inl hlt)
      · rw [append_lt_append_iff, ih]
        simp
      · refine iff_of_false (List.lt_asymm (bytes_lt_of_char_lt hgt _ _)) ?_
        rintro (hlt | ⟨rfl, -⟩)
        · exact Char.lt_asymm hgt hlt
        · exact Char.lt_irrefl _ hgt

/-- Texts are in the order of their bytes. -/
theorem bytes_lt_iff (s t : String) : bytes s < bytes t ↔ s < t := by
  rw [bytes_eq, bytes_eq, flatMap_lt_flatMap_iff]
  exact Iff.rfl

theorem bytes_le_iff (s t : String) : bytes s ≤ bytes t ↔ s ≤ t := by
  rw [← List.not_lt, bytes_lt_iff, String.not_lt]

end RuleSieve.Text
