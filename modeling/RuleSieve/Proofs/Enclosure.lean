/-
  What may stand around a number.

  A number stands between blanks, and where quotes are left out, these between quotes (`Holds`).  Every
  text holds what is left of it when its ends are trimmed, and what begins and ends with something else
  than blanks and quotes is all that a text can hold.
-/
import RuleSieve.Proofs.IntegerText

namespace RuleSieve.NumberText

/-- The text holds the characters between blanks, and those between quotes if quotes are left out. -/
def Holds (text : String) (strip : Bool) (cs : List Char) : Prop :=
  ∃ quotes blanks blanks' quotes',
    text.toList = quotes ++ (blanks ++ (cs ++ blanks') ++ quotes') ∧
      (∀ c ∈ quotes ++ quotes', strip = true ∧ isQuote c = true) ∧
      ∀ c ∈ blanks ++ blanks', Text.isBlank c = true

/-- A character that is neither a blank nor a quote. -/
def Plain (c : Char) : Prop := Text.isBlank c = false ∧ isQuote c = false

instance : DecidablePred Plain := fun _ => inferInstanceAs (Decidable (_ ∧ _))

/-- The characters begin and end with neither a blank nor a quote. -/
structure Bare (cs : List Char) : Prop where
  head : ∀ c ∈ cs.head?, Plain c
  last : ∀ c ∈ cs.getLast?, Plain c

variable {text : String} {strip : Bool} {cs : List Char}

/-- No blank is a quote. -/
theorem isQuote_of_isBlank {c : Char} (h : Text.isBlank c = true) : isQuote c = false := by
  by_contra hquote
  simp only [Bool.not_eq_false, isQuote, Bool.or_eq_true, beq_iff_eq] at hquote
  rcases hquote with (rfl | rfl) | rfl <;> exact absurd h (by decide)

/-- A text without blanks and quotes has none at its ends. -/
theorem bare_of_forall (h : ∀ c ∈ cs, Plain c) : Bare cs :=
  ⟨fun c hc => h c (List.mem_of_mem_head? hc), fun c hc => h c (List.mem_of_mem_getLast? hc)⟩

theorem IsDigit.ne_of_lt {base : Nat} {c d : Char} (h : IsDigit base c)
    (hd : d.toNat < 48 ∨ d.toNat = 96) : c ≠ d := by
  have hrange := isDigit_range h
  rintro rfl
  omega

/-- A digit of any base is neither a blank nor a quote. -/
theorem IsDigit.plain {base : Nat} {c : Char} (h : IsDigit base c) : Plain c := by
  have hrange := isDigit_range h
  constructor
  · simp only [Text.isBlank, Bool.or_eq_false_iff, Bool.and_eq_false_iff, decide_eq_false_iff_not,
      beq_eq_false_iff_ne]
    omega
  · simp only [isQuote, Bool.or_eq_false_iff, beq_eq_false_iff_ne]
    exact ⟨⟨h.ne_of_lt (by decide), h.ne_of_lt (by decide)⟩, h.ne_of_lt (by decide)⟩

/-- A text holds what is left when blanks, and quotes if they are left out, are trimmed away. -/
theorem holds_trim (text : String) (strip : Bool) :
    Holds text strip (Text.trim (unquoted text strip)) := by
  obtain ⟨blanks, blanks', heq, hblanks, hblanks'⟩ :=
    Text.exists_trimBy Text.isBlank (unquoted text strip)
  have hboth : ∀ c ∈ blanks ++ blanks', Text.isBlank c = true := fun c hc =>
    (List.mem_append.1 hc).elim (hblanks c) (hblanks' c)
  cases strip with
  | false =>
    refine ⟨[], blanks, blanks', [], ?_, fun c hc => absurd hc List.not_mem_nil, hboth⟩
    rw [List.nil_append, List.append_nil]
    exact heq
  | true =>
    obtain ⟨quotes, quotes', htext, hquotes, hquotes'⟩ := Text.exists_trimBy isQuote text.toList
    refine ⟨quotes, blanks, blanks', quotes', ?_, fun c hc => ⟨rfl, ?_⟩, hboth⟩
    · rw [show blanks ++ (Text.trim (unquoted text true) ++ blanks') =
        Text.trimBy isQuote text.toList from heq.symm]
      exact htext
    · exact (List.mem_append.1 hc).elim (hquotes c) (hquotes' c)

/-- What is left when the ends are trimmed is what the text holds. -/
theorem Holds.trim_eq (h : Holds text strip cs) (hbare : Bare cs) :
    Text.trim (unquoted text strip) = cs := by
  obtain ⟨quotes, blanks, blanks', quotes', htext, hquotes, hblanks⟩ := h
  obtain ⟨hfront, hback⟩ := List.forall_mem_append.1 hblanks
  have hunquoted : unquoted text strip = blanks ++ (cs ++ blanks') := by
    cases strip with
    | false =>
      have hnone : quotes ++ quotes' = [] :=
        List.eq_nil_iff_forall_not_mem.2 fun c hc => Bool.false_ne_true (hquotes c hc).1
      obtain ⟨rfl, rfl⟩ := List.append_eq_nil_iff.1 hnone
      rw [List.nil_append, List.append_nil] at htext
      exact htext
    | true =>
      obtain ⟨hstart, hend⟩ := List.forall_mem_append.1 fun c hc => (hquotes c hc).2
      show Text.trimBy isQuote text.toList = _
      rw [htext]
      have hplain {c : Char} (hc : c ∈ blanks ++ blanks') : isQuote c = false :=
        isQuote_of_isBlank (hblanks c hc)
      exact Text.trimBy_append hstart hend
        (fun c hc => (Text.mem_head?_between hc).elim hplain fun hc => (hbare.head c hc).2)
        fun c hc => (Text.mem_getLast?_between hc).elim hplain fun hc => (hbare.last c hc).2
  rw [hunquoted]
  exact Text.trimBy_append hfront hback (fun c hc => (hbare.head c hc).1)
    fun c hc => (hbare.last c hc).1

end RuleSieve.NumberText
