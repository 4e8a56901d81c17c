/-
  Texts that are trimmed.

  A text is what is left of it between characters that are trimmed away, and conversely what stands
  between such characters, and does not begin or end with one, is what is left.
-/
import Mathlib.Data.List.TakeWhile
import RuleSieve.Text.Blank

namespace RuleSieve.Text

variable {p : Char → Bool} {cs front back : List Char}

/-- What is trimmed away stands before and behind what is left. -/
theorem exists_trimBy (p : Char → Bool) (cs : List Char) :
    ∃ front back, cs = front ++ (trimBy p cs ++ back) ∧ (∀ c ∈ front, p c = true) ∧
      ∀ c ∈ back, p c = true := by
  refine ⟨cs.takeWhile p, ((cs.dropWhile p).reverse.takeWhile p).reverse, ?_,
    fun c => List.mem_takeWhile_imp, fun c hc => List.mem_takeWhile_imp (List.mem_reverse.1 hc)⟩
  rw [trimBy, dropEndWhile, ← List.reverse_append, List.takeWhile_append_dropWhile,
    List.reverse_reverse, List.takeWhile_append_dropWhile]

theorem mem_of_mem_trimBy {c : Char} (h : c ∈ trimBy p cs) : c ∈ cs := by
  obtain ⟨front, back, heq, -, -⟩ := exists_trimBy p cs
  rw [heq]
  exact List.mem_append_right front (List.mem_append_left back h)

/-- A character that is not to be trimmed away is left. -/
theorem mem_trimBy {c : Char} (h : c ∈ cs) (hc : p c = false) : c ∈ trimBy p cs := by
  obtain ⟨front, back, heq, hfront, hback⟩ := exists_trimBy p cs
  rw [heq, List.mem_append, List.mem_append] at h
  rcases h with h | h | h
  · exact absurd (hfront c h) (by simp [hc])
  · exact h
  · exact absurd (hback c h) (by simp [hc])

theorem dropWhile_eq_self (h : ∀ c ∈ cs.head?, p c = false) : cs.dropWhile p = cs := by
  cases cs with
  | nil => rfl
  | cons c cs => exact List.dropWhile_cons_of_neg (by simpa using h c rfl)

/-- What satisfies a condition ends where something begins that does not. -/
theorem span_append (hfront : ∀ c ∈ front, p c = true) (hback : ∀ c ∈ back.head?, p c = false) :
    (front ++ back).takeWhile p = front ∧ (front ++ back).dropWhile p = back := by
  rw [List.takeWhile_append_of_pos hfront, List.dropWhile_append_of_pos hfront,
    dropWhile_eq_self hback]
  refine ⟨?_, rfl⟩
  cases back with
  | nil => rw [List.takeWhile_nil, List.append_nil]
  | cons c back => rw [List.takeWhile_cons_of_neg (by simpa using hback c rfl), List.append_nil]

/-- What is trimmed away is everything around a text that neither begins nor ends with such a
    character. -/
theorem trimBy_append (hfront : ∀ c ∈ front, p c = true) (hback : ∀ c ∈ back, p c = true)
    (hhead : ∀ c ∈ cs.head?, p c = false) (hlast : ∀ c ∈ cs.getLast?, p c = false) :
    trimBy p (front ++ (cs ++ back)) = cs := by
  rw [trimBy, List.dropWhile_append_of_pos hfront]
  cases cs with
  | nil =>
    have hempty : back.dropWhile p = [] := List.dropWhile_eq_nil_iff.2 hback
    rw [List.nil_append, hempty]
    rfl
  | cons c cs =>
    have hkept : (c :: cs ++ back).dropWhile p = c :: cs ++ back :=
      dropWhile_eq_self fun d hd => hhead d hd
    have hend : (c :: cs).reverse.dropWhile p = (c :: cs).reverse :=
      dropWhile_eq_self fun d hd => hlast d (by rwa [List.head?_reverse] at hd)
    rw [hkept, dropEndWhile, List.reverse_append,
      List.dropWhile_append_of_pos fun d hd => hback d (List.mem_reverse.1 hd), hend,
      List.reverse_reverse]

/-- A text without blanks at its ends is left as it is. -/
theorem trim_eq_self (hhead : ∀ c ∈ cs.head?, isBlank c = false)
    (hlast : ∀ c ∈ cs.getLast?, isBlank c = false) : trim cs = cs := by
  have h : trimBy isBlank ([] ++ (cs ++ [])) = cs := trimBy_append
    (fun _ hc => absurd hc List.not_mem_nil) (fun _ hc => absurd hc List.not_mem_nil) hhead hlast
  rwa [List.nil_append, List.append_nil] at h

/-- The first character is one of those put around a text, or the first one of the text. -/
theorem mem_head?_between {c : Char} (h : c ∈ (front ++ (cs ++ back)).head?) :
    c ∈ front ++ back ∨ c ∈ cs.head? := by
  rw [List.head?_append, List.head?_append, Option.mem_def, Option.or_eq_some_iff,
    Option.or_eq_some_iff] at h
  rcases h with h | ⟨-, h | ⟨-, h⟩⟩
  · exact .inl (List.mem_append_left back (List.mem_of_mem_head? h))
  · exact .inr h
  · exact .inl (List.mem_append_right front (List.mem_of_mem_head? h))

theorem mem_getLast?_between {c : Char} (h : c ∈ (front ++ (cs ++ back)).getLast?) :
    c ∈ front ++ back ∨ c ∈ cs.getLast? := by
  rw [List.getLast?_append, List.getLast?_append, Option.mem_def, Option.or_eq_some_iff,
    Option.or_eq_some_iff] at h
  rcases h with (h | ⟨-, h⟩) | ⟨-, h⟩
  · exact .inl (List.mem_append_right front (List.mem_of_mem_getLast? h))
  · exact .inr h
  · exact .inl (List.mem_append_left back (List.mem_of_mem_getLast? h))

end RuleSieve.Text
