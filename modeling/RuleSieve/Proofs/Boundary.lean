/-
  The bytes of a source, and the boundaries of its characters.

  A source is kept as the bytes of its characters.  An index into them is a place where the source may
  be cut only if no character goes across it (`IsPlace`), and a slice is taken between two such places
  alone (`slice?`).  `Leaves` ties an index to the characters that are left from there on; it is what
  carries a reader of bytes over to a reader of characters.
-/
import Mathlib.Data.List.Basic
import RuleSieve.Predicate.Evaluation
import RuleSieve.Proofs.Layout

namespace RuleSieve.Predicate

/-! ## Places -/

/-- The index is no larger than the source, and stands on a boundary of its characters. -/
def IsPlace (source : String) (index : Nat) : Prop :=
  index ≤ source.utf8ByteSize ∧ String.Pos.Raw.IsValid source ⟨index⟩

instance (source : String) (index : Nat) : Decidable (IsPlace source index) :=
  inferInstanceAs (Decidable (_ ∧ _))

/-- The characters between two places, the first of which is not after the second. -/
def slice? (source : String) (start stop : Nat) : Option (List Char) :=
  if start ≤ stop ∧ IsPlace source start ∧ IsPlace source stop then
    (source.toByteArray.extract start stop).utf8Decode?.map Array.toList
  else none

/-- The byte at an index, as the character of the same number. -/
def byteAt? (source : String) (index : Nat) : Option Char :=
  source.toByteArray[index]?.map Char.ofUInt8

/-- The characters `rest` are left of the source from the index on. -/
def Leaves (source : String) (index : Nat) (rest : List Char) : Prop :=
  ∃ before, source.toList = before ++ rest ∧ index = byteLength before

variable {source : String} {index : Nat} {text rest : List Char}

/-- The length in bytes is that of the encoding. -/
theorem byteLength_eq (cs : List Char) : byteLength cs = cs.utf8Encode.size := by
  induction cs with
  | nil => rfl
  | cons c cs ih =>
    rw [List.utf8Encode_cons, ByteArray.size_append, ← ih, byteLength]
    simp [List.utf8Encode, String.length_utf8EncodeChar]

/-- A text is the encoding of its characters. -/
theorem toByteArray_eq (source : String) : source.toByteArray = source.toList.utf8Encode := by
  rw [← String.toByteArray_ofList, String.ofList_toList]

theorem utf8ByteSize_eq (source : String) : source.utf8ByteSize = byteLength source.toList := by
  rw [byteLength_eq, ← toByteArray_eq, String.size_toByteArray]

namespace Leaves

theorem start (source : String) : Leaves source 0 source.toList := ⟨[], rfl, rfl⟩

/-- After a text that was read, what is left starts as many bytes later. -/
theorem append (h : Leaves source index (text ++ rest)) :
    Leaves source (index + byteLength text) rest := by
  obtain ⟨before, hsource, rfl⟩ := h
  exact ⟨before ++ text, by rw [hsource, List.append_assoc], (byteLength_append before text).symm⟩

/-- The end of the source is as many bytes away as are left. -/
theorem utf8ByteSize_eq (h : Leaves source index rest) :
    source.utf8ByteSize = index + byteLength rest := by
  obtain ⟨before, hsource, rfl⟩ := h
  rw [Predicate.utf8ByteSize_eq, hsource, byteLength_append]

/-- Where characters are left, a character begins. -/
theorem isPlace (h : Leaves source index rest) : IsPlace source index := by
  refine ⟨by rw [h.utf8ByteSize_eq]; exact Nat.le_add_right _ _, ?_⟩
  obtain ⟨before, hsource, rfl⟩ := h
  refine String.Pos.Raw.isValid_iff_exists_append.2 ⟨String.ofList before, String.ofList rest, ?_, ?_⟩
  · rw [← String.ofList_append, ← hsource, String.ofList_toList]
  · rw [String.Pos.Raw.ext_iff, String.byteIdx_rawEndPos, ← String.size_toByteArray,
      String.toByteArray_ofList, ← byteLength_eq]

/-- Between two indices stands what is left from the first one on and not from the second one on. -/
theorem stop_eq {stop : Nat} (h : Leaves source index (text ++ rest))
    (hstop : Leaves source stop rest) : stop = index + byteLength text := by
  have hsize := h.utf8ByteSize_eq
  rw [hstop.utf8ByteSize_eq, byteLength_append] at hsize
  omega

/-- What is cut out stands between the two indices. -/
theorem slice?_eq {stop : Nat} (h : Leaves source index (text ++ rest))
    (hstop : Leaves source stop rest) : slice? source index stop = some text := by
  obtain rfl := h.stop_eq hstop
  rw [slice?, if_pos ⟨Nat.le_add_right _ _, h.isPlace, hstop.isPlace⟩]
  obtain ⟨before, hsource, rfl⟩ := h
  have hextract : source.toByteArray.extract (byteLength before) (byteLength before + byteLength text) =
      text.utf8Encode := by
    rw [toByteArray_eq, hsource, List.utf8Encode_append, List.utf8Encode_append, byteLength_eq,
      byteLength_eq]
    -- what stands before the text is cut off first, then what is left after it
    have hbefore := ByteArray.extract_append_size_add (a := before.utf8Encode)
      (b := text.utf8Encode ++ rest.utf8Encode) (i := 0) (j := text.utf8Encode.size)
    rw [Nat.add_zero] at hbefore
    rw [hbefore, ByteArray.extract_append_eq_left rfl]
  rw [hextract, List.utf8Decode?_utf8Encode]
  rfl

/-- The source from a place to its end is what is left there. -/
theorem slice?_end (h : Leaves source index rest) :
    slice? source index source.utf8ByteSize = some rest := by
  rw [h.utf8ByteSize_eq]
  rw [← List.append_nil rest] at h
  exact h.slice?_eq h.append

end Leaves

/-! ## Characters and their first bytes -/

/-- The first byte of a character, as the character of the same number. -/
def lead (c : Char) : Char := ((String.utf8EncodeChar c).head?.map Char.ofUInt8).getD c

theorem toNat_ofUInt8 {n : Nat} (h : n < 256) : (Char.ofUInt8 (UInt8.ofNat n)).toNat = n := by
  show (UInt8.ofNat n).toUInt32.toNat = n
  rw [UInt8.toNat_toUInt32, UInt8.toNat_ofNat_of_lt' h]

/-- The first byte of an ASCII character is the character. -/
theorem lead_eq {c : Char} (h : c.toNat < 128) : lead c = c := by
  have hle : c.val.toNat ≤ 127 := Nat.le_of_lt_succ h
  have hlead : lead c = Char.ofUInt8 (UInt8.ofNat c.val.toNat) := by
    rw [lead, String.utf8EncodeChar]
    simp only [if_pos hle]
    rfl
  rw [hlead]
  exact Char.toNat_inj.1 (toNat_ofUInt8 (Nat.lt_trans h (by decide)))

/-- The first byte of another character is not ASCII. -/
theorem le_lead {c : Char} (h : 128 ≤ c.toNat) : 128 ≤ (lead c).toNat := by
  have hgt : ¬ c.val.toNat ≤ 127 := Nat.not_le_of_lt h
  rw [lead, String.utf8EncodeChar]
  simp only [if_neg hgt]
  split
  · rw [List.head?_cons, Option.map_some, Option.getD_some, toNat_ofUInt8 (by omega)]
    omega
  · split
    · rw [List.head?_cons, Option.map_some, Option.getD_some, toNat_ofUInt8 (by omega)]
      omega
    · rw [List.head?_cons, Option.map_some, Option.getD_some, toNat_ofUInt8 (by omega)]
      omega

/-- A test that only ASCII characters pass. -/
def IsAscii (p : Char → Bool) : Prop := ∀ c, p c = true → c.toNat < 128

/-- Such a test is passed by a character just if its first byte passes it. -/
theorem IsAscii.lead {p : Char → Bool} (h : IsAscii p) (c : Char) : p (lead c) = p c := by
  by_cases hc : c.toNat < 128
  · rw [lead_eq hc]
  · have hlead := le_lead (Nat.le_of_not_lt hc)
    rw [Bool.eq_iff_iff]
    exact ⟨fun hp => absurd (h _ hp) (Nat.not_lt_of_le hlead), fun hp => absurd (h _ hp) hc⟩

/-- An ASCII character is found by looking at first bytes. -/
theorem lead_eq_iff {c d : Char} (hd : d.toNat < 128) : lead c = d ↔ c = d := by
  have hlead := IsAscii.lead (p := (· == d)) (fun _ hc => beq_iff_eq.1 hc ▸ hd) c
  rw [Bool.eq_iff_iff, beq_iff_eq, beq_iff_eq] at hlead
  exact hlead

/-- At an index stands the first byte of what is left from there on. -/
theorem Leaves.byteAt?_eq (h : Leaves source index rest) :
    byteAt? source index = rest.head?.map Predicate.lead := by
  obtain ⟨before, hsource, rfl⟩ := h
  have hbytes : source.toByteArray[byteLength before]? =
      (rest.flatMap String.utf8EncodeChar)[0]? := by
    rw [toByteArray_eq, hsource, byteLength_eq]
    show ((before ++ rest).flatMap String.utf8EncodeChar).toByteArray.data[
      (before.flatMap String.utf8EncodeChar).toByteArray.size]? = _
    rw [List.data_toByteArray, List.size_toByteArray, List.getElem?_toArray, List.flatMap_append,
      List.getElem?_append_right (Nat.le_refl _), Nat.sub_self]
  rw [byteAt?, hbytes]
  cases rest with
  | nil => rfl
  | cons c rest =>
    -- every character has a first byte
    have hpos : 0 < (String.utf8EncodeChar c).length := by
      rw [String.length_utf8EncodeChar]
      exact c.utf8Size_pos
    obtain ⟨byte, bytes, hencode⟩ := List.exists_cons_of_length_pos hpos
    rw [List.flatMap_cons, List.head?_cons, Option.map_some, Predicate.lead, hencode]
    rfl

/-- The byte at a place passes an ASCII test just if the character there does. -/
theorem Leaves.any_byteAt? {p : Char → Bool} (hp : IsAscii p) (h : Leaves source index rest) :
    (byteAt? source index).any p = rest.head?.any p := by
  rw [h.byteAt?_eq]
  cases rest with
  | nil => rfl
  | cons c rest => exact hp.lead c

/-! ## Runs of ASCII characters -/

/-- An ASCII character is one byte long. -/
theorem Leaves.tail {c : Char} (h : Leaves source index (c :: rest)) (hc : c.toNat < 128) :
    Leaves source (index + 1) rest := by
  have hsize : c.utf8Size = 1 := Char.utf8Size_eq_one_iff.2 (Nat.le_of_lt_succ hc)
  have hrest := (show Leaves source index ([c] ++ rest) from h).append
  rwa [byteLength, byteLength, hsize] at hrest

/-- A byte that is there is within the source. -/
theorem lt_size_of_byteAt? {c : Char} (h : byteAt? source index = some c) :
    index < source.toByteArray.size := by
  obtain ⟨byte, hbyte, -⟩ := Option.map_eq_some_iff.1 h
  have hdata : source.toByteArray.data[index]? = some byte := hbyte
  exact (Array.getElem?_eq_some_iff.1 hdata).1

/-- The first index, from the given one on, whose byte does not pass the test. -/
def skipWhile (source : String) (p : Char → Bool) (index : Nat) : Nat :=
  match h : byteAt? source index with
  | some c => if p c then skipWhile source p (index + 1) else index
  | none => index
termination_by source.toByteArray.size - index
decreasing_by exact Nat.sub_lt_sub_left (lt_size_of_byteAt? h) (Nat.lt_succ_self index)

/-- A run of ASCII characters is passed over. -/
theorem Leaves.skipWhile_eq {p : Char → Bool} (hp : IsAscii p) (h : Leaves source index rest) :
    skipWhile source p index = index + (rest.takeWhile p).length ∧
      Leaves source (index + (rest.takeWhile p).length)
        (rest.drop (rest.takeWhile p).length) := by
  induction rest generalizing index with
  | nil =>
    rw [skipWhile]
    split
    · next c hc => rw [h.byteAt?_eq] at hc; cases hc
    · exact ⟨rfl, h⟩
  | cons c rest ih =>
    have hbyte : byteAt? source index = some (lead c) := h.byteAt?_eq
    rw [skipWhile]
    split
    · next d hd =>
      obtain rfl : lead c = d := Option.some.inj (hbyte ▸ hd)
      rw [hp.lead]
      cases hc : p c with
      | false =>
        rw [List.takeWhile_cons_of_neg (by simp [hc])]
        exact ⟨rfl, h⟩
      | true =>
        obtain ⟨heq, hleft⟩ := ih (h.tail (hp c hc))
        rw [List.takeWhile_cons_of_pos hc, List.length_cons, if_pos rfl, heq, List.drop_succ_cons,
          Nat.add_comm (List.length _) 1, ← Nat.add_assoc]
        exact ⟨rfl, hleft⟩
    · next hnone => rw [hbyte] at hnone; cases hnone

end RuleSieve.Predicate
