/-
  Spans of a source text, and sets of spans.

  A span is an interval of offsets together with the metavariables that are bound in it.  Only the
  interval matters for order and identity, so a set holds at most one span of each interval, and it
  matters which one: `insert` keeps the span that is there, `replace` takes the new one.
-/
import RuleSieve.Dict

namespace RuleSieve

/-! ## Spans -/

/-- The offsets from `start` up to but not including `stop`, and the names bound there. -/
structure Span where
  start : Nat
  stop : Nat
  vars : List String
  deriving Repr, DecidableEq

namespace Span

/-- Do the two spans have the same interval? -/
def SameInterval (a b : Span) : Prop := a.start = b.start ∧ a.stop = b.stop

instance (a b : Span) : Decidable (SameInterval a b) := inferInstanceAs (Decidable (_ ∧ _))

/-- Does the first span come before the second one? -/
def Before (a b : Span) : Prop := a.start < b.start ∨ (a.start = b.start ∧ a.stop < b.stop)

instance (a b : Span) : Decidable (Before a b) := inferInstanceAs (Decidable (_ ∨ _))

/-- Does the first span contain the second one?  A span contains itself. -/
def encloses (a b : Span) : Bool := a.start ≤ b.start && b.stop ≤ a.stop

/-- Is the name bound in the span? -/
def binds (a : Span) (name : String) : Bool := a.vars.contains name

/-- The number of offsets. -/
def length (a : Span) : Nat := a.stop - a.start

/-- The text of a span. -/
def text (a : Span) : String := s!"[{a.start}, {a.stop})"

theorem Before.trans {a b c : Span} (h₁ : Before a b) (h₂ : Before b c) : Before a c := by
  simp only [Before] at *; omega

theorem Before.irrefl (a : Span) : ¬ Before a a := by
  simp only [Before]; omega

theorem before_or_same_or_before (a b : Span) : Before a b ∨ SameInterval a b ∨ Before b a := by
  simp only [Before, SameInterval]; omega

theorem sameInterval_of_not_before {a b : Span} (h₁ : ¬ Before a b) (h₂ : ¬ Before b a) :
    SameInterval a b := by
  rcases before_or_same_or_before a b with h | h | h
  · exact absurd h h₁
  · exact h
  · exact absurd h h₂

theorem SameInterval.before_left {a b c : Span} (h : SameInterval a b) (hc : Before b c) :
    Before a c := by
  simp only [Before, SameInterval] at *; omega

end Span

/-! ## Sets of spans -/

/-- Spans of different intervals, in increasing order. -/
structure SpanSet where
  spans : List Span
  ordered : spans.Pairwise Span.Before

namespace SpanSet

/-- No span. -/
def empty : SpanSet := ⟨[], .nil⟩

/-- Puts a span at its place in a list; `choose` says which span stays where the interval is there
    already, given the one that is there. -/
def place (s : Span) (choose : Span → Span) : List Span → List Span
  | [] => [s]
  | t :: ts =>
    if s.Before t then s :: t :: ts
    else if t.Before s then t :: place s choose ts
    else choose t :: ts

theorem mem_place {s x : Span} {choose : Span → Span} {ts : List Span} (h : x ∈ place s choose ts) :
    x = s ∨ (∃ t ∈ ts, t.SameInterval s ∧ x = choose t) ∨ x ∈ ts := by
  induction ts with
  | nil => simp [place] at h; exact .inl h
  | cons t ts ih =>
    simp only [place] at h
    split at h
    · rcases List.mem_cons.1 h with h | h
      · exact .inl h
      · exact .inr (.inr h)
    · split at h
      · rcases List.mem_cons.1 h with h | h
        · exact .inr (.inr (h ▸ List.mem_cons_self))
        · rcases ih h with h | ⟨u, hu, hs⟩ | h
          · exact .inl h
          · exact .inr (.inl ⟨u, List.mem_cons_of_mem _ hu, hs⟩)
          · exact .inr (.inr (List.mem_cons_of_mem _ h))
      · next hst hts =>
        rcases List.mem_cons.1 h with h | h
        · exact .inr (.inl ⟨t, List.mem_cons_self, Span.sameInterval_of_not_before hts hst, h⟩)
        · exact .inr (.inr (List.mem_cons_of_mem _ h))

theorem ordered_place {s : Span} {choose : Span → Span} {ts : List Span}
    (hc : ∀ t, t.SameInterval s → (choose t).SameInterval t) (h : ts.Pairwise Span.Before) :
    (place s choose ts).Pairwise Span.Before := by
  induction ts with
  | nil => simp [place]
  | cons t ts ih =>
    obtain ⟨ht, hts⟩ := List.pairwise_cons.1 h
    simp only [place]
    split
    · next hst =>
      refine List.pairwise_cons.2 ⟨fun x hx => ?_, h⟩
      rcases List.mem_cons.1 hx with rfl | hx
      · exact hst
      · exact hst.trans (ht x hx)
    · split
      · next hst hts' =>
        refine List.pairwise_cons.2 ⟨fun x hx => ?_, ih hts⟩
        rcases mem_place hx with rfl | ⟨u, hu, hs, rfl⟩ | hx
        · exact hts'
        · have hsame := hc u hs
          have := ht u hu
          simp only [Span.Before, Span.SameInterval] at *
          omega
        · exact ht x hx
      · next hst hts' =>
        refine List.pairwise_cons.2 ⟨fun x hx => ?_, hts⟩
        exact (hc t (Span.sameInterval_of_not_before hts' hst)).before_left (ht x hx)

/-- The set with the span, unless one of its interval is there. -/
def insert (set : SpanSet) (s : Span) : SpanSet :=
  ⟨place s id set.spans, ordered_place (fun _ _ => ⟨rfl, rfl⟩) set.ordered⟩

/-- The set with the span, in place of one of its interval. -/
def replace (set : SpanSet) (s : Span) : SpanSet :=
  ⟨place s (fun _ => s) set.spans, ordered_place (fun _ h => ⟨h.1.symm, h.2.symm⟩) set.ordered⟩

/-- The spans that satisfy a condition. -/
def filter (p : Span → Bool) (set : SpanSet) : SpanSet :=
  ⟨set.spans.filter p, set.ordered.filter p⟩

/-- The span of the same interval as `s`. -/
def find? (set : SpanSet) (s : Span) : Option Span := set.spans.find? fun t => t.SameInterval s

/-- Is there a span of the same interval as `s`? -/
def contains (set : SpanSet) (s : Span) : Bool := set.spans.any fun t => t.SameInterval s

/-- The set without the span of the same interval as `s`. -/
def erase (set : SpanSet) (s : Span) : SpanSet := set.filter fun t => !decide (t.SameInterval s)

/-- The set with several spans, each unless one of its interval is there. -/
def insertAll (set : SpanSet) (spans : List Span) : SpanSet := spans.foldl insert set

/-- The set of some spans; of several with one interval the last one stays. -/
def ofList (spans : List Span) : SpanSet := spans.foldl replace empty

end SpanSet

end RuleSieve
