/-
  Where the readers of predicates say that something is wrong.

  A reader goes on at one of the ends of the tokens it was given, and what it complains of is the
  first token of such an end, or the end of the source (`StaysIn`).  The readers call one another on
  what is left of the tokens, or on the same tokens for a phrase that binds more tightly; this order
  is what the proofs about all of them go by (`phrase_induction`).
-/
import RuleSieve.Proofs.Completeness

namespace RuleSieve.Predicate

/-! ## The order of the calls -/

/-- On the same tokens a reader calls only readers of phrases that come before its own. -/
def Phrase.order : Phrase → Nat
  | .more .. | .links | .suffixes _ | .primary => 0
  | .signed => 1
  | .chain level => level.rank
  | .operand level => level.rank - 1
  | .comparison => 6
  | .negation => 7
  | .whole => 12
  | .argsFrom => 13
  | .args => 14

/-- The order of phrases ends with that of arguments. -/
theorem Phrase.order_le (p : Phrase) : p.order ≤ 14 := by
  cases p with
  | chain level | operand level => cases level <;> decide
  | more | suffixes => exact Nat.zero_le _
  | _ => decide

/-- What holds of a reading as soon as it holds of those that it may call holds of every reading. -/
theorem phrase_induction {motive : List Lexeme → Phrase → Prop}
    (step : ∀ ts p, (∀ us q, us.length < ts.length ∨ us = ts ∧ q.order < p.order → motive us q) →
      motive ts p)
    (ts : List Lexeme) (p : Phrase) : motive ts p :=
  step ts p fun us q _ => phrase_induction step us q
termination_by (ts.length, p.order)
decreasing_by
  rename_i h
  rcases h with h | ⟨rfl, h⟩
  · exact Prod.Lex.left _ _ h
  · exact Prod.Lex.right _ h

/-! ## Readings that stay among their tokens -/

/-- The reading goes on with an end of the tokens `ts`, or complains of the first token of one. -/
def StaysIn (stop : Nat) (ts : List Lexeme) {α : Type} (rest : α → List Lexeme)
    (x : Except Error α) : Prop :=
  (∀ a, x = .ok a → rest a <:+ ts) ∧
    ∀ e, x = .error e → ∃ us problem, us <:+ ts ∧ e = .illFormed (offsetOf stop us) problem

variable {stop : Nat} {ts us : List Lexeme} {α β : Type} {rest : α → List Lexeme}

namespace StaysIn

/-- A reading that succeeds has to leave an end of its tokens. -/
theorem ok {a : α} (h : rest a <:+ ts) : StaysIn stop ts rest (.ok a) :=
  ⟨fun _ heq => Except.ok.inj heq ▸ h, fun _ heq => (nomatch heq)⟩

/-- A complaint about an end of the tokens stays among them. -/
theorem problemAt {problem : SyntaxProblem} (h : us <:+ ts) :
    StaysIn stop ts rest (problemAt stop us problem) :=
  ⟨fun _ heq => (nomatch heq), fun _ heq => ⟨us, problem, h, (Except.error.inj heq).symm⟩⟩

/-- What stays in an end of the tokens stays in all of them. -/
theorem mono {x : Except Error α} (h : StaysIn stop us rest x) (hus : us <:+ ts) :
    StaysIn stop ts rest x := by
  refine ⟨fun a ha => (h.1 a ha).trans hus, fun e he => ?_⟩
  obtain ⟨vs, problem, hvs, heq⟩ := h.2 e he
  exact ⟨vs, problem, hvs.trans hus, heq⟩

/-- Readings one after the other stay where they are if each does. -/
theorem bind {rest' : β → List Lexeme} {x : Except Error α} {f : α → Except Error β}
    (hx : StaysIn stop ts rest x) (hf : ∀ a, x = .ok a → StaysIn stop (rest a) rest' (f a)) :
    StaysIn stop ts rest' (x >>= f) := by
  cases x with
  | error e => exact ⟨fun _ heq => (nomatch heq), fun _ heq => hx.2 _ (Except.error.inj heq ▸ rfl)⟩
  | ok a => exact (hf a rfl).mono (hx.1 a rfl)

end StaysIn

/-- Going down leaves the tokens as they are. -/
theorem descend_staysIn (ts : List Lexeme) (depth : Nat) :
    StaysIn stop ts (fun _ => ts) (descend stop ts depth) := by
  unfold descend
  split
  · exact .ok (List.suffix_refl ts)
  · exact .problemAt (List.suffix_refl ts)

theorem afterBracket_staysIn (ts : List Lexeme) : StaysIn stop ts id (afterBracket stop ts) := by
  unfold afterBracket
  split
  · exact .ok (List.suffix_cons _ _)
  · exact .problemAt (List.suffix_refl _)

theorem methodHead_staysIn (ts : List Lexeme) : StaysIn stop ts Prod.snd (methodHead stop ts) := by
  unfold methodHead
  split
  · exact .ok ((List.suffix_cons _ _).trans (List.suffix_cons _ _))
  · exact .problemAt (List.suffix_cons _ _)
  · exact .problemAt (List.drop_suffix 1 _)

/-! ## The readers stay among their tokens -/

/-- Wherever the phrase is read in the tokens, the reading stays among them. -/
def ReadsWithin (stop : Nat) (ts : List Lexeme) (p : Phrase) : Prop :=
  ∀ depth, StaysIn stop ts (fun r => r.2.tokens) (p.read stop ⟨ts, depth⟩)

/-- What holds of fewer tokens than `ts` for all phrases. -/
abbrev WithinBelow (stop : Nat) (ts : List Lexeme) : Prop :=
  ∀ us : List Lexeme, us.length < ts.length → ∀ p, ReadsWithin stop us p

/-- A whole term passes no token itself. -/
theorem within_whole (h : ReadsWithin stop ts (.chain .or)) : ReadsWithin stop ts .whole := by
  intro depth
  rw [read_whole]
  refine (descend_staysIn ts depth).bind fun depth _ => ?_
  exact (h depth).bind fun r _ => .ok (List.suffix_refl _)

/-- A chain goes on with what its first operand left. -/
theorem within_chain {level : Chain} (ih : WithinBelow stop ts)
    (h : ReadsWithin stop ts (.operand level)) : ReadsWithin stop ts (.chain level) := by
  intro depth
  rw [read_chain]
  exact (h depth).bind fun r hr =>
    ih r.2.tokens ((length_of_read stop hr).2 rfl) (.more level r.1) r.2.depth

/-- Every operator is followed by what its operand left. -/
theorem within_more {level : Chain} {left : Term} (ih : WithinBelow stop ts) :
    ReadsWithin stop ts (.more level left) := by
  intro depth
  rcases head_cases (level.build? ·.token ≠ none) ts with hnone | ⟨lexeme, rest, rfl, hsome⟩
  · rw [read_more_none stop fun lexeme hhead => not_not.1 (hnone lexeme hhead)]
    exact .ok (List.suffix_refl _)
  · obtain ⟨build, hbuild⟩ := Option.ne_none_iff_exists'.1 hsome
    rw [read_more_some stop hbuild]
    refine StaysIn.mono ?_ (List.suffix_cons lexeme rest)
    refine (descend_staysIn rest depth).bind fun depth _ => ?_
    refine (ih rest (Nat.lt_succ_self _) (.operand level) depth).bind fun r hr => ?_
    have hlt : r.2.tokens.length < rest.length := (length_of_read stop hr).2 rfl
    exact (ih r.2.tokens (Nat.lt_succ_of_lt hlt) (.more level (build left r.1)) r.2.depth).bind
      fun s _ => .ok (List.suffix_refl _)

theorem within_operand {level : Chain}
    (h : ReadsWithin stop ts
      (match level with
        | .or => .chain .and
        | .and => .negation
        | .sum => .chain .product
        | .product => .signed)) : ReadsWithin stop ts (.operand level) := by
  intro depth
  rw [read_operand]
  cases level <;> exact h depth

/-- What is negated stands behind the word. -/
theorem within_negation (ih : WithinBelow stop ts) (h : ReadsWithin stop ts .comparison) :
    ReadsWithin stop ts .negation := by
  intro depth
  rcases head_cases (·.token = .not) ts with hbare | ⟨lexeme, rest, rfl, hnot⟩
  · rw [read_negation stop _ hbare]
    exact h depth
  · rw [read_negation_not stop _ hnot]
    refine StaysIn.mono ?_ (List.suffix_cons lexeme rest)
    refine (descend_staysIn rest depth).bind fun depth _ => ?_
    exact (ih rest (Nat.lt_succ_self _) .negation depth).bind fun r _ => .ok (List.suffix_refl _)

theorem within_comparison (ih : WithinBelow stop ts) (h : ReadsWithin stop ts (.chain .sum)) :
    ReadsWithin stop ts .comparison := by
  intro depth
  rw [read_comparison]
  refine (h depth).bind fun r hr => ?_
  exact (ih r.2.tokens ((length_of_read stop hr).2 rfl) .links r.2.depth).bind
    fun s _ => .ok (List.suffix_refl _)

/-- What comes after a comparison operator is an end of the tokens. -/
theorem suffix_of_compareOp? {op : CompareOp} {rest : { rest : List Lexeme // rest.length < ts.length }}
    (h : compareOp? ts = some (op, rest)) : rest.1 <:+ ts := by
  unfold compareOp? at h
  split at h
  · cases h
    exact (List.suffix_cons _ _).trans (List.suffix_cons _ _)
  · obtain ⟨op', -, heq⟩ := Option.map_eq_some_iff.1 h
    cases heq
    exact List.suffix_cons _ _
  · cases h

/-- Every comparison operator is followed by what its sum left. -/
theorem within_links (ih : WithinBelow stop ts) : ReadsWithin stop ts .links := by
  intro depth
  cases hop : compareOp? ts with
  | none =>
    rw [read_links_none stop hop]
    exact .ok (List.suffix_refl _)
  | some found =>
    obtain ⟨op, rest⟩ := found
    rw [read_links_some stop hop]
    refine StaysIn.mono ?_ (suffix_of_compareOp? hop)
    refine (ih rest.1 rest.2 (.chain .sum) depth).bind fun r hr => ?_
    have hlt : r.2.tokens.length < rest.1.length := (length_of_read stop hr).2 rfl
    exact (ih r.2.tokens (Nat.lt_trans hlt rest.2) .links r.2.depth).bind
      fun s _ => .ok (List.suffix_refl _)

theorem within_signed (ih : WithinBelow stop ts) (h : ReadsWithin stop ts .primary) :
    ReadsWithin stop ts .signed := by
  intro depth
  rcases head_cases₂ (·.token = .minus) (·.token = .plus) ts with hbare | ⟨lexeme, rest, rfl, hsign⟩
  · rw [read_signed stop _ hbare]
    exact (h depth).bind fun r hr =>
      ih r.2.tokens ((length_of_read stop hr).2 rfl) (.suffixes r.1) r.2.depth
  · have hrest := ih rest (Nat.lt_succ_self _) .signed
    rcases hsign with hsign | hsign
    · rw [read_signed_minus stop _ hsign]
      refine StaysIn.mono ?_ (List.suffix_cons lexeme rest)
      refine (descend_staysIn rest depth).bind fun depth _ => ?_
      exact (hrest depth).bind fun r _ => .ok (List.suffix_refl _)
    · rw [read_signed_plus stop _ hsign]
      refine StaysIn.mono ?_ (List.suffix_cons lexeme rest)
      refine (descend_staysIn rest depth).bind fun depth _ => ?_
      exact (hrest depth).bind fun r _ => .ok (List.suffix_refl _)

/-- Suffixes follow each other, with an index or arguments inside. -/
theorem within_suffixes {target : Term} (ih : WithinBelow stop ts) :
    ReadsWithin stop ts (.suffixes target) := by
  intro depth
  rcases head_cases₂ (·.token = .leftBracket) (·.token = .dot) ts with
    hbare | ⟨lexeme, rest, rfl, hsuffix⟩
  · rw [read_suffixes_none stop hbare]
    exact .ok (List.suffix_refl _)
  · have hrest := List.suffix_cons lexeme rest
    rcases hsuffix with hbracket | hdot
    · rw [read_suffixes_index stop hbracket]
      refine (descend_staysIn _ depth).bind fun depth _ => StaysIn.mono ?_ hrest
      refine (ih rest (Nat.lt_succ_self _) .whole depth).bind fun r hr => ?_
      have hlt : r.2.tokens.length < rest.length := (length_of_read stop hr).2 rfl
      refine (afterBracket_staysIn r.2.tokens).bind fun more hmore => ?_
      obtain ⟨closing, hclosing, -⟩ := (afterBracket_eq_ok_iff stop).1 hmore
      -- with the brackets gone there are fewer tokens than the suffixes were read from
      have hmorelt : more.length < (lexeme :: rest).length := by
        rw [hclosing, List.length_cons] at hlt
        rw [List.length_cons]
        omega
      exact (ih more hmorelt (.suffixes (.index target r.1)) r.2.depth).bind
        fun s _ => .ok (List.suffix_refl _)
    · rw [read_suffixes_method stop hdot]
      refine (descend_staysIn _ depth).bind fun depth _ => StaysIn.mono ?_ hrest
      refine (methodHead_staysIn rest).bind fun head hhead' => ?_
      obtain ⟨ident, paren, rfl, -, -⟩ := (methodHead_eq_ok_iff stop).1 hhead'
      have hheadlt : head.2.length < (lexeme :: ident :: paren :: head.2).length := by
        simp only [List.length_cons]
        omega
      refine (ih head.2 hheadlt .args depth).bind fun r hr => ?_
      have hlt : r.2.tokens.length < head.2.length := (length_of_read stop hr).2 rfl
      exact (ih r.2.tokens (Nat.lt_trans hlt hheadlt) (.suffixes (.method target head.1 r.1))
        r.2.depth).bind fun s _ => .ok (List.suffix_refl _)

theorem within_args (h : ReadsWithin stop ts .argsFrom) : ReadsWithin stop ts .args := by
  intro depth
  rcases head_cases (·.token = .rightParen) ts with hsome | ⟨lexeme, rest, rfl, hparen⟩
  · rw [read_args stop _ hsome]
    exact h depth
  · rw [read_args_none stop hparen]
    exact .ok (List.suffix_cons lexeme rest)

/-- Arguments follow each other behind commas. -/
theorem within_argsFrom (ih : WithinBelow stop ts) (h : ReadsWithin stop ts .whole) :
    ReadsWithin stop ts .argsFrom := by
  intro depth
  rw [read_argsFrom]
  refine (h depth).bind fun r hr => ?_
  have hlt : r.2.tokens.length < ts.length := (length_of_read stop hr).2 rfl
  split
  · next offset text rest hclosing =>
    rw [hclosing]
    exact .ok (List.suffix_cons _ _)
  · next offset text rest hcomma =>
    rw [hcomma] at hlt ⊢
    refine StaysIn.mono ?_ (List.suffix_cons _ rest)
    exact (ih rest (Nat.lt_of_succ_lt hlt) .argsFrom r.2.depth).bind
      fun s _ => .ok (List.suffix_refl _)
  · exact .problemAt (List.suffix_refl _)

/-- A primary passes its own tokens, or complains of the first. -/
theorem within_primary (ih : WithinBelow stop ts) : ReadsWithin stop ts .primary := by
  intro depth
  rcases primary_cases ts with hbad | ⟨lexeme, rest, value, rfl, hvalue⟩ |
    ⟨lexeme, rest, name, rfl, hname, hcall⟩ |
    ⟨lexeme, paren, rest, name, rfl, hname, hparen, hdollar⟩ | ⟨lexeme, rest, rfl, hparen⟩
  · obtain ⟨problem, hproblem⟩ := read_primary_error stop (c := ⟨ts, depth⟩) hbad
    rw [hproblem]
    exact .problemAt (List.suffix_refl _)
  · rw [read_primary_literal stop hvalue]
    exact .ok (List.suffix_cons lexeme rest)
  · rw [read_primary_name stop hname hcall]
    exact .ok (List.suffix_cons lexeme rest)
  · rw [read_primary_call stop hname hparen hdollar]
    refine StaysIn.mono ?_ ((List.suffix_cons paren rest).trans (List.suffix_cons lexeme _))
    have hlt : rest.length < (lexeme :: paren :: rest).length := by
      simp only [List.length_cons]
      omega
    exact (ih rest hlt .args depth).bind fun r _ => .ok (List.suffix_refl _)
  · rw [read_primary_paren stop hparen]
    refine StaysIn.mono ?_ (List.suffix_cons lexeme rest)
    refine (ih rest (Nat.lt_succ_self _) .whole depth).bind fun r _ => ?_
    split
    · next offset text more hclosing =>
      rw [hclosing]
      exact .ok (List.suffix_cons _ _)
    · exact .problemAt (List.suffix_refl _)

/-- Every reader stays among its tokens. -/
theorem readsWithin (stop : Nat) (ts : List Lexeme) (p : Phrase) : ReadsWithin stop ts p := by
  induction ts, p using phrase_induction with
  | step ts p ih =>
    have hbelow : WithinBelow stop ts := fun us hus p => ih us p (.inl hus)
    have hsame (q : Phrase) (hq : q.order < p.order) : ReadsWithin stop ts q := ih ts q (.inr ⟨rfl, hq⟩)
    cases p with
    | whole => exact within_whole (hsame _ (by decide))
    | chain level => exact within_chain hbelow (hsame _ (by cases level <;> decide))
    | operand level => exact within_operand (by cases level <;> exact hsame _ (by decide))
    | more level left => exact within_more hbelow
    | negation => exact within_negation hbelow (hsame _ (by decide))
    | comparison => exact within_comparison hbelow (hsame _ (by decide))
    | links => exact within_links hbelow
    | signed => exact within_signed hbelow (hsame _ (by decide))
    | primary => exact within_primary hbelow
    | suffixes target => exact within_suffixes hbelow
    | args => exact within_args (hsame _ (by decide))
    | argsFrom => exact within_argsFrom hbelow (hsame _ (by decide))

/-- **Whatever is wrong with tokens is said of one of them, or of the end of the source.** -/
theorem exists_of_parseTokens_eq_error {ls : List Lexeme} {e : Error}
    (h : parseTokens stop ls = .error e) :
    ∃ us problem, us <:+ ls ∧ e = .illFormed (offsetOf stop us) problem := by
  rw [parseTokens_eq] at h
  rcases Outcome.bind_eq_error_iff.1 h with h | ⟨r, hread, h⟩
  · exact (readsWithin stop ls .whole 0).2 e h
  · split at h
    · cases h
    · next lexeme more hmore =>
      refine ⟨lexeme :: more, _, ?_, (Except.error.inj h).symm⟩
      exact hmore ▸ (readsWithin stop ls .whole 0).1 r hread

end RuleSieve.Predicate
