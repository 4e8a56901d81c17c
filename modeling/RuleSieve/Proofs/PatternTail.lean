/-
  What a closing parenthesis after a text changes for the readers of patterns.

  Every reader of a part of a pattern is run on a text and on the same text with a closing
  parenthesis behind it.  Either it stops before the end in the same way, or it runs out of text: then
  the parenthesis may end what was not ended before, or it may disappear in a comment.  `Agree` says
  this of two results, and goes through every composition of readers.
-/
import RuleSieve.Regex.Matches
import RuleSieve.Proofs.Outcome

namespace RuleSieve.Regex

open Text (dropStart?)

variable {α β : Type} {cs : List Char}

/-! ## Agreement -/

/-- What a reader gives on the text `cs`, and what it gives with a closing parenthesis after it. -/
inductive Agree (cs : List Char) :
    Except PatternError (α × List Char) → Except PatternError (α × List Char) → Prop
  /-- Neither is read. -/
  | fails (e e' : PatternError) : Agree cs (.error e) (.error e')
  /-- Both are read to the same place, and the parenthesis stands behind it. -/
  | goesOn (a : α) {rest : List Char} (h : rest <:+ cs) :
      Agree cs (.ok (a, rest)) (.ok (a, rest ++ [')']))
  /-- Both are read to the end, and the parenthesis is in a comment. -/
  | swallows (a : α) (h : '#' ∈ cs) : Agree cs (.ok (a, [])) (.ok (a, []))
  /-- The parenthesis ends what was not ended. -/
  | finishes (e : PatternError) (a : α) : Agree cs (.error e) (.ok (a, []))

/-- The reader gives results that agree, whatever the text is. -/
def Local (f : List Char → Except PatternError (α × List Char)) : Prop :=
  ∀ cs, Agree cs (f cs) (f (cs ++ [')']))

namespace Agree

variable {x y : Except PatternError (α × List Char)}

/-- Results that agree on a text agree on every text that ends with it. -/
theorem mono {ds : List Char} (h : Agree cs x y) (hsuffix : cs <:+ ds) : Agree ds x y := by
  cases h with
  | fails e e' => exact .fails e e'
  | goesOn a h => exact .goesOn a (h.trans hsuffix)
  | swallows a h => exact .swallows a (hsuffix.subset h)
  | finishes e a => exact .finishes e a

theorem ok (a : α) : Agree cs (.ok (a, cs)) (.ok (a, cs ++ [')'])) := .goesOn a (List.suffix_refl cs)

/-- What is left is a part of the text. -/
theorem suffix {a : α} {rest : List Char} (h : Agree cs x y) (hx : x = .ok (a, rest)) :
    rest <:+ cs := by
  cases h with
  | fails | finishes => cases hx
  | goesOn a h =>
    cases hx
    exact h
  | swallows =>
    cases hx
    exact List.nil_suffix

/-- Two results on the empty text that agree leave nothing. -/
theorem eq_nil {a : α} {rest : List Char} (h : Agree [] x y) (hx : x = .ok (a, rest)) :
    rest = [] :=
  List.suffix_nil.1 (h.suffix hx)

/-- Results that agree are read on, from the same place or from the end. -/
theorem bind {f g : α × List Char → Except PatternError (β × List Char)} (h : Agree cs x y)
    (hgo : ∀ a rest, rest <:+ cs → Agree rest (f (a, rest)) (g (a, rest ++ [')'])))
    (hnil : ∀ a, f (a, []) = g (a, [])) : Agree cs (x >>= f) (y >>= g) := by
  cases h with
  | fails e e' => exact .fails e e'
  | goesOn a h => exact (hgo a _ h).mono h
  | swallows a h =>
    show Agree cs (f (a, [])) (g (a, []))
    rw [← hnil a]
    cases hf : f (a, []) with
    | error e => exact .fails e e
    | ok r =>
      obtain ⟨b, rest⟩ := r
      obtain rfl := (hgo a [] List.nil_suffix).eq_nil hf
      exact .swallows b h
  | finishes e a =>
    show Agree cs (.error e) (g (a, []))
    rw [← hnil a]
    cases hf : f (a, []) with
    | error e' => exact .fails e e'
    | ok r =>
      obtain ⟨b, rest⟩ := r
      obtain rfl := (hgo a [] List.nil_suffix).eq_nil hf
      exact .finishes e b

/-- One reader after another. -/
theorem andThen {f : α × List Char → Except PatternError (β × List Char)} (h : Agree cs x y)
    (hf : ∀ a, Local fun rest => f (a, rest)) : Agree cs (x >>= f) (y >>= f) :=
  h.bind (fun a rest _ => hf a rest) fun _ => rfl

end Agree

/-- A check or a step that reads nothing. -/
theorem local_of_except (x : Except PatternError α) (f : α → β) :
    Local fun cs => x >>= fun a => .ok (f a, cs) := by
  intro cs
  cases x with
  | error e => exact .fails e e
  | ok a => exact .ok (f a)

theorem local_ok (a : α) : Local fun cs => .ok (a, cs) := fun _ => .ok a

/-- A reader that always fails is local. -/
theorem local_error (e : PatternError) : Local fun _ => (.error e : Except _ (α × List Char)) :=
  fun _ => .fails e e

/-! ## Skipping -/

/-- What is left without blanks and comments is an end of the text. -/
theorem dropComments_suffix (inComment : Bool) (cs : List Char) :
    dropComments inComment cs <:+ cs := by
  induction cs generalizing inComment with
  | nil => exact List.suffix_refl []
  | cons c cs ih =>
    cases inComment with
    | true => exact (ih _).trans (List.suffix_cons c cs)
    | false =>
      rw [dropComments]
      split
      · exact (ih _).trans (List.suffix_cons c cs)
      · split
        · exact (ih _).trans (List.suffix_cons c cs)
        · exact List.suffix_refl _

/-- Blanks and comments end at the same place with a parenthesis behind them, unless a comment takes
    it in. -/
theorem dropComments_append (inComment : Bool) (cs : List Char) :
    dropComments inComment (cs ++ [')']) = dropComments inComment cs ++ [')'] ∨
      (dropComments inComment cs = [] ∧ dropComments inComment (cs ++ [')']) = [] ∧
        (inComment = true ∨ '#' ∈ cs)) := by
  induction cs generalizing inComment with
  | nil =>
    cases inComment with
    | true => exact .inr ⟨rfl, rfl, .inl rfl⟩
    | false => exact .inl rfl
  | cons c cs ih =>
    rw [List.cons_append]
    cases inComment with
    | true =>
      rw [dropComments, dropComments]
      rcases ih (c != '\n') with h | ⟨h, h', -⟩
      · exact .inl h
      · exact .inr ⟨h, h', .inl rfl⟩
    | false =>
      rw [dropComments, dropComments]
      split
      · rcases ih false with h | ⟨h, h', hhash⟩
        · exact .inl h
        · exact .inr ⟨h, h', .inr (List.mem_cons_of_mem c (by simpa using hhash))⟩
      · split
        · next hhash =>
          rcases ih true with h | ⟨h, h', -⟩
          · exact .inl h
          · exact .inr ⟨h, h', .inr (by simp [hhash])⟩
        · exact .inl rfl

/-- What verbose mode leaves is an end of the text. -/
theorem Flags.skip_suffix (flags : Flags) (cs : List Char) : flags.skip cs <:+ cs := by
  unfold Flags.skip
  split
  · exact dropComments_suffix false cs
  · exact List.suffix_refl cs

/-- A parenthesis after a text is not skipped, unless the text ends in a comment. -/
theorem Flags.skip_append (flags : Flags) (cs : List Char) :
    flags.skip (cs ++ [')']) = flags.skip cs ++ [')'] ∨
      (flags.skip cs = [] ∧ flags.skip (cs ++ [')']) = [] ∧ '#' ∈ cs) := by
  unfold Flags.skip
  split
  · simpa using dropComments_append false cs
  · exact .inl rfl

/-- After blanks and comments there are no more of them. -/
theorem dropComments_idem (inComment : Bool) (cs : List Char) :
    dropComments false (dropComments inComment cs) = dropComments inComment cs := by
  induction cs generalizing inComment with
  | nil => cases inComment <;> rfl
  | cons c cs ih =>
    cases inComment with
    | true => exact ih _
    | false =>
      rw [dropComments]
      split
      · exact ih _
      · next hblank =>
        split
        · exact ih _
        · next hhash => rw [dropComments, if_neg hblank, if_neg hhash]

/-- Nothing is skipped twice. -/
theorem Flags.skip_skip (flags : Flags) (cs : List Char) :
    flags.skip (flags.skip cs) = flags.skip cs := by
  unfold Flags.skip
  split
  · exact dropComments_idem false cs
  · rfl

/-- What begins with a mark is not skipped. -/
theorem Flags.skip_cons (flags : Flags) {c : Char} (hblank : Text.isBlank c = false)
    (hhash : c ≠ '#') (cs : List Char) : flags.skip (c :: cs) = c :: cs := by
  unfold Flags.skip
  split
  · rw [dropComments, if_neg (by rw [hblank]; exact Bool.false_ne_true), if_neg hhash]
  · rfl

theorem Flags.skip_nil (flags : Flags) : flags.skip [] = [] :=
  List.suffix_nil.1 (flags.skip_suffix [])

/-- Where there is nothing to skip, the parenthesis changes nothing of that. -/
theorem Flags.skip_paren (flags : Flags) {cs : List Char} (h : flags.skip cs = cs) :
    flags.skip (cs ++ [')']) = cs ++ [')'] := by
  rcases flags.skip_append cs with hskip | ⟨hskip, hskip', hhash⟩
  · rw [hskip, h]
  · rw [hskip] at h
    subst h
    cases hhash

/-- A reader that skips first needs to be looked at where there is nothing to skip. -/
theorem local_of_skip {f : List Char → Except PatternError (α × List Char)} (flags : Flags)
    (hf : ∀ cs, f cs = f (flags.skip cs))
    (h : ∀ cs, flags.skip cs = cs → Agree cs (f cs) (f (cs ++ [')']))) : Local f := by
  intro cs
  rw [hf cs, hf (cs ++ [')'])]
  rcases flags.skip_append cs with hskip | ⟨hskip, hskip', hhash⟩
  · rw [hskip]
    exact (h _ (flags.skip_skip cs)).mono (flags.skip_suffix cs)
  · rw [hskip, hskip']
    have hnil := h [] flags.skip_nil
    cases hresult : f [] with
    | error e => exact .fails e e
    | ok r =>
      obtain ⟨a, rest⟩ := r
      obtain rfl := hnil.eq_nil hresult
      exact .swallows a hhash

/-- Skipping before a reader. -/
theorem Local.skip {f : List Char → Except PatternError (α × List Char)} (h : Local f)
    (flags : Flags) : Local fun cs => f (flags.skip cs) := by
  refine local_of_skip flags (fun cs => by rw [flags.skip_skip]) (fun cs hclean => ?_)
  rw [hclean, flags.skip_paren hclean]
  exact h cs

/-- Readers that give the same results are local together. -/
theorem Local.congr {f g : List Char → Except PatternError (α × List Char)} (h : Local f)
    (heq : ∀ cs, g cs = f cs) : Local g := by
  intro cs
  rw [heq, heq]
  exact h cs

/-- A choice between local readers is local. -/
theorem local_ite {f g : List Char → Except PatternError (α × List Char)} {c : Prop}
    [Decidable c] (hf : Local f) (hg : Local g) : Local fun cs => if c then f cs else g cs := by
  by_cases hc : c
  · simpa only [if_pos hc] using hf
  · simpa only [if_neg hc] using hg

/-- A parenthesis behind a text does not make it begin with another character. -/
theorem ne_cons_paren {d : Char} (hd : ')' ≠ d) (h : ∀ rest, cs = d :: rest → False)
    (rest : List Char) : cs ++ [')'] = d :: rest → False := by
  intro heq
  cases cs with
  | nil => exact hd (List.cons.inj heq).1
  | cons c cs => exact h cs (congrArg (· :: cs) (List.cons.inj heq).1)

/-- A reader that goes one of two ways, as a mark other than the parenthesis stands first or not. -/
theorem local_of_mark {f g h : List Char → Except PatternError (α × List Char)} {d : Char}
    (hd : ')' ≠ d) (hmark : ∀ rest, f (d :: rest) = g rest)
    (hother : ∀ cs, (∀ rest, cs = d :: rest → False) → f cs = h cs) (hg : Local g)
    (hh : Local h) : Local f := by
  intro cs
  by_cases hcs : ∃ rest, cs = d :: rest
  · obtain ⟨rest, rfl⟩ := hcs
    rw [List.cons_append, hmark, hmark]
    exact (hg rest).mono (List.suffix_cons d rest)
  · have hcs : ∀ rest, cs = d :: rest → False := fun rest h => hcs ⟨rest, h⟩
    rw [hother cs hcs, hother _ (ne_cons_paren hd hcs)]
    exact hh cs

/-- The same after skipping. -/
theorem local_of_skip_mark {f g h : List Char → Except PatternError (α × List Char)} {d : Char}
    (flags : Flags) (hd : ')' ≠ d) (hmark : ∀ cs rest, flags.skip cs = d :: rest → f cs = g rest)
    (hother : ∀ cs, (∀ rest, flags.skip cs = d :: rest → False) → f cs = h (flags.skip cs))
    (hg : Local g) (hh : Local h) : Local f := by
  refine local_of_skip flags (fun cs => ?_) (fun cs hclean => ?_)
  · by_cases hcs : ∃ rest, flags.skip cs = d :: rest
    · obtain ⟨rest, hrest⟩ := hcs
      rw [hmark cs rest hrest, hmark _ rest (by rw [flags.skip_skip, hrest])]
    · have hcs' : ∀ rest, flags.skip cs = d :: rest → False := fun rest h => hcs ⟨rest, h⟩
      rw [hother cs hcs', hother _ (by rwa [flags.skip_skip]), flags.skip_skip]
  · have hclean' := flags.skip_paren hclean
    by_cases hcs : ∃ rest, cs = d :: rest
    · obtain ⟨rest, rfl⟩ := hcs
      rw [hmark _ rest hclean, hmark _ (rest ++ [')']) hclean']
      exact (hg rest).mono (List.suffix_cons d rest)
    · have hcs : ∀ rest, cs = d :: rest → False := fun rest h => hcs ⟨rest, h⟩
      rw [hother cs (by rwa [hclean]), hclean, hother _ (by rw [hclean']; exact ne_cons_paren hd hcs),
        hclean']
      exact hh cs

/-- A reader that looks at one character first. -/
theorem local_of_cons {f : List Char → Except PatternError (α × List Char)}
    (hnil : Agree [] (f []) (f [')']))
    (hcons : ∀ c, Local fun cs => f (c :: cs)) : Local f := by
  intro cs
  cases cs with
  | nil => exact hnil
  | cons c cs => exact (hcons c cs).mono (List.suffix_cons c cs)

/-! ## Words up to a character that is no parenthesis -/

variable {p : Char → Bool}

theorem takeWhile_paren (hp : p ')' = false) (cs : List Char) :
    (cs ++ [')']).takeWhile p = cs.takeWhile p := by
  induction cs with
  | nil => simp [hp]
  | cons c cs ih =>
    rw [List.cons_append, List.takeWhile_cons, List.takeWhile_cons, ih]

theorem dropWhile_paren (hp : p ')' = false) (cs : List Char) :
    (cs ++ [')']).dropWhile p = cs.dropWhile p ++ [')'] := by
  induction cs with
  | nil => simp [hp]
  | cons c cs ih =>
    rw [List.cons_append, List.dropWhile_cons, List.dropWhile_cons, ih]
    split <;> rfl

/-- A word that a parenthesis can stand in goes on at its end, or is ended before. -/
theorem span_paren (hp : p ')' = true) (cs : List Char) :
    (cs.dropWhile p = [] ∧ (cs ++ [')']).dropWhile p = []) ∨
      ∃ d rest, cs.dropWhile p = d :: rest ∧ (cs ++ [')']).dropWhile p = d :: (rest ++ [')']) ∧
        (cs ++ [')']).takeWhile p = cs.takeWhile p := by
  induction cs with
  | nil => exact .inl ⟨rfl, by simp [hp]⟩
  | cons c cs ih =>
    rw [List.cons_append]
    cases hc : p c with
    | true =>
      rw [List.dropWhile_cons_of_pos hc, List.dropWhile_cons_of_pos hc,
        List.takeWhile_cons_of_pos hc, List.takeWhile_cons_of_pos hc]
      rcases ih with h | ⟨d, rest, h, h', hword⟩
      · exact .inl h
      · exact .inr ⟨d, rest, h, h', congrArg _ hword⟩
    | false =>
      have hc : ¬ p c = true := by simp [hc]
      rw [List.dropWhile_cons_of_neg hc, List.dropWhile_cons_of_neg hc,
        List.takeWhile_cons_of_neg hc, List.takeWhile_cons_of_neg hc]
      exact .inr ⟨c, cs, rfl, rfl, rfl⟩

/-- A prefix without parentheses is dropped in the same way. -/
theorem dropStart?_paren {start : List Char} (hstart : ')' ∉ start) (cs : List Char) :
    dropStart? start (cs ++ [')']) = (dropStart? start cs).map (· ++ [')']) := by
  induction start generalizing cs with
  | nil => rfl
  | cons a start ih =>
    obtain ⟨ha, hstart⟩ : ')' ≠ a ∧ ')' ∉ start := by simpa using hstart
    cases cs with
    | nil => exact if_neg (Ne.symm ha)
    | cons c cs =>
      rw [List.cons_append, dropStart?, dropStart?, ih hstart]
      split <;> rfl

theorem dropStart?_suffix {start rest : List Char} (h : dropStart? start cs = some rest) :
    rest <:+ cs :=
  ⟨start, (Text.dropStart?_eq_some_iff.1 h).symm⟩

/-- A run of digits ends before the parenthesis. -/
theorem readCount?_paren (cs : List Char) :
    readCount? (cs ++ [')']) = ((readCount? cs).1, (readCount? cs).2 ++ [')']) := by
  have hblank : Text.isBlank ')' = false := by decide
  have hdigit : Decimal.isDigit ')' = false := by decide
  simp only [readCount?, dropWhile_paren hblank, dropWhile_paren hdigit, takeWhile_paren hdigit]
  split
  · rfl
  · split <;> rfl

theorem readCount?_suffix (cs : List Char) : (readCount? cs).2 <:+ cs := by
  have hrest : (readCount? cs).2 =
      ((cs.dropWhile Text.isBlank).dropWhile Decimal.isDigit).dropWhile Text.isBlank := by
    simp only [readCount?]
    split
    · rfl
    · split <;> rfl
  rw [hrest]
  exact (List.dropWhile_suffix _).trans
    ((List.dropWhile_suffix _).trans (List.dropWhile_suffix _))

/-- The mark of a lazy repetition is no parenthesis. -/
theorem readLazy_paren (cs : List Char) :
    readLazy (cs ++ [')']) = ((readLazy cs).1, (readLazy cs).2 ++ [')']) := by
  match cs with
  | [] => rfl
  | c :: cs =>
    by_cases hc : c = '?'
    · subst hc
      rfl
    · rw [List.cons_append, readLazy, readLazy]
      · rfl
      all_goals simp [hc]

theorem readLazy_suffix (cs : List Char) : (readLazy cs).2 <:+ cs := by
  unfold readLazy
  split
  · exact List.suffix_cons _ _
  · exact List.suffix_refl cs

/-! ## Groups and repetitions -/

/-- The name of a group ends with its angle bracket, so a parenthesis never ends it. -/
theorem local_readName : Local readName := by
  intro cs
  rcases span_paren (p := (· != '>')) (by decide) cs with ⟨h, h'⟩ | ⟨d, rest, h, h', hname⟩
  · simp only [readName, h, h']
    exact .fails _ _
  · have hsuffix : rest <:+ cs := (List.suffix_cons d rest).trans (h ▸ List.dropWhile_suffix _)
    simp only [readName, h, h', hname]
    cases cs.takeWhile (· != '>') with
    | nil => exact .fails _ _
    | cons first more =>
      show Agree cs (ite _ _ _) (ite _ _ _)
      split
      · exact .goesOn _ hsuffix
      · exact .fails _ _

/-- Flags are ended by the same character, or by the parenthesis only. -/
theorem readFlags_paren (flags : Flags) (seen : List Char) (on : Bool) (cs : List Char) :
    (∃ e e', readFlags flags seen on cs = .error e ∧
        readFlags flags seen on (cs ++ [')']) = .error e') ∨
      (∃ flags' c rest, rest <:+ cs ∧ readFlags flags seen on cs = .ok (flags', c :: rest) ∧
        readFlags flags seen on (cs ++ [')']) = .ok (flags', c :: (rest ++ [')']))) ∨
      ∃ e flags', readFlags flags seen on cs = .error e ∧
        readFlags flags seen on (cs ++ [')']) = .ok (flags', [')']) := by
  induction cs generalizing flags seen on with
  | nil =>
    rw [List.nil_append, readFlags, readFlags, if_pos (by decide)]
    split
    · exact .inl ⟨_, _, rfl, rfl⟩
    · exact .inr (.inr ⟨_, _, rfl, rfl⟩)
  | cons c cs ih =>
    have hsuffix {rest : List Char} (h : rest <:+ cs) : rest <:+ c :: cs :=
      h.trans (List.suffix_cons c cs)
    rw [List.cons_append, readFlags, readFlags]
    split
    · split
      · exact .inl ⟨_, _, rfl, rfl⟩
      · exact .inr (.inl ⟨_, c, cs, List.suffix_cons c cs, rfl, rfl⟩)
    · split
      · exact .inl ⟨_, _, rfl, rfl⟩
      · split
        · exact (ih flags (c :: seen) false).imp_right
            (.imp_left fun ⟨flags', d, rest, h, hrest⟩ => ⟨flags', d, rest, hsuffix h, hrest⟩)
        · split
          · exact (ih _ (c :: seen) on).imp_right
              (.imp_left fun ⟨flags', d, rest, h, hrest⟩ => ⟨flags', d, rest, hsuffix h, hrest⟩)
          · exact .inl ⟨_, _, rfl, rfl⟩

theorem dropStart?_orElse_paren {s t : List Char} (hs : ')' ∉ s) (ht : ')' ∉ t) (cs : List Char) :
    (dropStart? s (cs ++ [')']) <|> dropStart? t (cs ++ [')'])) =
      (dropStart? s cs <|> dropStart? t cs).map (· ++ [')']) := by
  rw [dropStart?_paren hs, dropStart?_paren ht]
  cases dropStart? s cs <;> rfl

theorem dropStart?_orElse_suffix {s t after : List Char}
    (h : (dropStart? s cs <|> dropStart? t cs) = some after) : after <:+ cs := by
  cases hs : dropStart? s cs with
  | some rest =>
    rw [hs] at h
    cases h
    exact dropStart?_suffix hs
  | none =>
    rw [hs] at h
    exact dropStart?_suffix h

/-- What opens a group is read in the same way with a parenthesis behind it. -/
theorem local_readGroup (st : ReaderState) : Local (readGroup st) := by
  refine local_of_skip st.flags (fun cs => ?_) (fun cs hclean => ?_)
  · simp only [readGroup, st.flags.skip_skip]
  · have hdrop {start : List Char} (h : ')' ∉ start) := dropStart?_paren h cs
    have hname := dropStart?_orElse_paren (s := ['?', 'P', '<']) (t := ['?', '<']) (by decide)
      (by decide) cs
    simp only [readGroup, hclean, st.flags.skip_paren hclean, hname,
      hdrop (show ')' ∉ ['?', '='] by decide), hdrop (show ')' ∉ ['?', '!'] by decide),
      hdrop (show ')' ∉ ['?', '<', '='] by decide), hdrop (show ')' ∉ ['?', '<', '!'] by decide),
      Option.isSome_map]
    split
    · exact .fails _ _
    · cases hafter : dropStart? ['?', 'P', '<'] cs <|> dropStart? ['?', '<'] cs with
      | some after =>
        have hnamed := (local_readName after).mono (dropStart?_orElse_suffix hafter)
        refine hnamed.andThen fun name rest => ?_
        show Agree rest (ite _ _ _) (ite _ _ _)
        split
        · exact .fails _ _
        · exact .ok _
      | none =>
        simp only [Option.map_none]
        split
        · next more _ =>
          simp only [List.cons_append]
          rcases readFlags_paren st.flags [] true more with
            ⟨e, e', h, h'⟩ | ⟨flags, c, rest, hsuffix, h, h'⟩ | ⟨e, flags, h, h'⟩
          · rw [h, h']
            exact .fails _ _
          · simp only [h, h']
            have hrest : rest <:+ '?' :: more := hsuffix.trans (List.suffix_cons _ _)
            have hhead : (more ++ [')']).head? = more.head? := by
              cases more with
              | nil => cases h
              | cons => rfl
            simp only [bind, Except.bind, hhead]
            split
            · next heq =>
              cases heq
              split
              · exact .fails _ _
              · exact .goesOn _ hrest
            · next hparen =>
              split
              · next heq =>
                cases heq
                exact absurd rfl (hparen rest)
              · exact .goesOn _ hrest
          · simp only [h, h', bind, Except.bind]
            split
            · exact .fails _ _
            · exact .finishes _ _
        · next hmark =>
          split
          · next heq =>
            cases cs with
            | nil => cases heq
            | cons c cs =>
              cases heq
              exact absurd rfl (hmark cs)
          · exact .ok _

theorem local_afterHigh (low high : Nat) : Local (afterHigh low high) := by
  refine local_of_mark (d := '\x7d') (by decide) (fun rest => rfl)
    (h := fun _ => malformed "the repetition is not closed") (fun cs hcs => ?_)
    (local_ite (local_error _) (local_ok _)) (local_error _)
  rw [afterHigh]
  exact hcs

/-- A count, which there has to be, and what is read after it. -/
theorem local_count {f : Nat → List Char → Except PatternError (β × List Char)}
    (hf : ∀ count, Local (f count)) (e : PatternError) :
    Local fun cs => (readCount? cs).1 >>= fun count? =>
      match count? with
      | some count => f count (readCount? cs).2
      | none => .error e := by
  intro cs
  simp only [readCount?_paren]
  cases (readCount? cs).1 with
  | error e => exact .fails e e
  | ok count =>
    cases count with
    | none => exact .fails e e
    | some count => exact (hf count _).mono (readCount?_suffix cs)

theorem local_afterComma (flags : Flags) (low : Nat) : Local (afterComma flags low) := by
  refine local_of_mark (d := '\x7d') (by decide) (fun rest => rfl) (fun cs hcs => ?_) (local_ok _)
    (local_count (fun high => (local_afterHigh low high).skip flags)
      (.malformed "the repetition has no count"))
  rw [afterComma]
  · generalize readCount? cs = r
    rfl
  · exact hcs

theorem local_afterLow (flags : Flags) (low : Nat) : Local (afterLow flags low) := by
  refine local_of_cons (.fails _ _) fun c => ?_
  by_cases hclose : c = '\x7d'
  · subst hclose
    exact local_ok _
  · by_cases hcomma : c = ','
    · subst hcomma
      exact (local_afterComma flags low).skip flags
    · refine (local_error (.malformed "the repetition is not closed")).congr fun cs => ?_
      rw [afterLow]
      · rfl
      all_goals simp [hclose, hcomma]

/-- The bounds of a repetition are read in the same way with a parenthesis behind them. -/
theorem local_readBounds (flags : Flags) : Local (readBounds flags) := by
  have hcount := local_count (fun low => (local_afterLow flags low).skip flags)
    (.malformed "the repetition has no count")
  refine (hcount.skip flags).congr fun cs => ?_
  unfold readBounds
  generalize readCount? (flags.skip cs) = r
  rfl

/-! ## Escapes -/

/-- A name in braces ends at its brace. -/
theorem untilBrace_paren (verbose inComment : Bool) (cs : List Char) :
    untilBrace verbose inComment (cs ++ [')']) =
      (untilBrace verbose inComment cs).map fun r => (r.1, r.2 ++ [')']) := by
  induction cs generalizing inComment with
  | nil =>
    have hblank : Text.isBlank ')' = false := by decide
    cases inComment <;> simp [untilBrace, hblank]
  | cons c cs ih =>
    rw [List.cons_append]
    cases inComment with
    | true => rw [untilBrace, untilBrace, ih]
    | false =>
      rw [untilBrace, untilBrace, ih, ih]
      split
      · rfl
      · split
        · rfl
        · split
          · rfl
          · cases untilBrace verbose false cs <;> rfl

theorem untilBrace_suffix {verbose inComment : Bool} {inside rest : List Char}
    (h : untilBrace verbose inComment cs = some (inside, rest)) : rest <:+ cs := by
  induction cs generalizing inComment inside with
  | nil => cases inComment <;> cases h
  | cons c cs ih =>
    have hcons {inComment : Bool} {inside : List Char}
        (h : untilBrace verbose inComment cs = some (inside, rest)) : rest <:+ c :: cs :=
      (ih h).trans (List.suffix_cons c cs)
    cases inComment with
    | true =>
      rw [untilBrace] at h
      exact hcons h
    | false =>
      rw [untilBrace] at h
      split at h
      · cases h
        exact List.suffix_cons _ _
      · split at h
        · exact hcons h
        · split at h
          · exact hcons h
          · obtain ⟨⟨inside', rest'⟩, hrest, heq⟩ := Option.map_eq_some_iff.1 h
            cases heq
            exact hcons hrest

/-- The inside of braces, which have to be closed, and what is made of it. -/
theorem local_untilBrace (verbose : Bool) (e : PatternError)
    {f : List Char → List Char → Except PatternError (β × List Char)}
    (hf : ∀ inside, Local (f inside)) :
    Local fun cs =>
      match untilBrace verbose false cs with
      | none => .error e
      | some (inside, rest) => f inside rest := by
  intro cs
  simp only [untilBrace_paren]
  cases h : untilBrace verbose false cs with
  | none => exact .fails e e
  | some r => exact (hf r.1 r.2).mono (untilBrace_suffix h)

/-- So many hexadecimal digits are read in the same way, or are not there in both cases. -/
theorem local_takeExactly (flags : Flags) (count : Nat) : Local (takeExactly flags count) := by
  induction count with
  | zero => exact local_ok []
  | succ count ih =>
    have hmore : Local fun cs => takeExactly flags count (if count = 0 then cs else flags.skip cs) := by
      by_cases hcount : count = 0
      · simpa only [if_pos hcount] using ih
      · simpa only [if_neg hcount] using ih.skip flags
    refine local_of_cons ?_ fun c cs => (hmore cs).andThen fun more => local_ok (c :: more)
    show Agree [] (.error _) (takeExactly flags count (if count = 0 then [] else flags.skip []) >>= _)
    cases count with
    | zero => exact .finishes _ _
    | succ count =>
      rw [if_neg (Nat.succ_ne_zero count), flags.skip_nil]
      exact .fails _ _

/-- An escape that names a character by its number is local, in braces or not. -/
theorem local_readHex (flags : Flags) (letter : Char) : Local (readHex flags letter) := by
  have hbraces := local_untilBrace flags.verbose (.malformed "the brace is not closed") fun digits =>
    local_of_except (charOfHex digits) Atom.literal
  refine local_of_skip_mark (d := '\x7b') flags (by decide) (fun cs rest hcs => ?_)
    (fun cs hcs => ?_) hbraces (h := fun cs => do
      let read ← takeExactly flags (if letter = 'x' then 2 else if letter = 'u' then 4 else 8) cs
      let c ← charOfHex read.1
      if letter = 'x' && !flags.unicode && 128 ≤ c.toNat then
        malformed "the byte is no character"
      else return (.literal c, read.2)) (fun cs => ?_)
  · unfold readHex
    rw [hcs]
    split
    · next heq =>
      cases heq
      cases untilBrace flags.verbose false rest with
      | none => rfl
      | some r =>
        show (charOfHex r.1).map _ = charOfHex r.1 >>= _
        cases charOfHex r.1 <;> rfl
    · next hbrace => exact absurd rfl (hbrace rest)
  · unfold readHex
    generalize flags.skip cs = ds at hcs ⊢
    generalize (if letter = 'x' then 2 else if letter = 'u' then 4 else 8) = count
    split
    · next rest => exact absurd rfl (hcs rest)
    · rfl
  · refine (local_takeExactly flags _ cs).andThen fun digits rest => ?_
    show Agree rest (charOfHex digits >>= _) (charOfHex digits >>= _)
    cases charOfHex digits with
    | error e => exact .fails e e
    | ok c =>
      show Agree rest (ite _ _ _) (ite _ _ _)
      split
      · exact .fails _ _
      · exact .ok _

/-- The name of a property without braces: one character, but no backslash. -/
def readShortName : List Char → Except PatternError (List Char × List Char)
  | [] => malformed "the escape is not finished"
  | c :: cs => if c = '\\' then malformed "the property has no name" else .ok ([c], cs)

theorem local_readShortName : Local readShortName :=
  local_of_cons (.finishes _ _) fun _ => local_ite (local_error _) (local_ok _)

/-- The name of a property is local, in braces or of one letter. -/
theorem local_readPropertyName (flags : Flags) : Local (readPropertyName flags) := by
  have hbraces := local_untilBrace flags.verbose (.malformed "the brace is not closed") local_ok
  refine local_of_skip_mark (d := '\x7b') flags (by decide) (fun cs rest hcs => ?_)
    (fun cs hcs => ?_) hbraces local_readShortName
  · unfold readPropertyName
    rw [hcs]
    split
    · next heq => cases heq
    · next heq =>
      cases heq
      cases untilBrace flags.verbose false rest <;> rfl
    · next hbrace heq =>
      cases heq
      exact absurd rfl hbrace
  · unfold readPropertyName
    generalize flags.skip cs = ds at hcs ⊢
    split
    · rfl
    · next rest => exact absurd rfl (hcs rest)
    · rfl

/-- A class that is named by a property is local. -/
theorem local_readProperty (flags : Flags) (negated : Bool) :
    Local (readProperty flags negated) := by
  intro cs
  unfold readProperty
  split
  · exact .fails _ _
  · refine (local_readPropertyName flags cs).andThen fun inside rest => ?_
    show Agree rest (namedProperty inside >>= _) (namedProperty inside >>= _)
    cases namedProperty inside with
    | error e => exact .fails e e
    | ok found => exact .ok _

/-- After a boundary, a brace with nothing but blanks behind it is left for the count of a
    repetition only when something stands after the blanks. -/
theorem readBoundary_paren (flags : Flags) (cs : List Char) :
    Agree cs (readBoundary flags cs) (readBoundary flags (cs ++ [')'])) ∨
      ∃ after e, cs = '\x7b' :: after ∧ flags.skip after = [] ∧ readBoundary flags cs = .error e ∧
        readBoundary flags (cs ++ [')']) =
          .ok (.look (.word .any flags.unicode), cs ++ [')']) := by
  by_cases hbrace : ∃ after, cs = '\x7b' :: after
  · obtain ⟨after, rfl⟩ := hbrace
    simp only [readBoundary, List.cons_append]
    rcases flags.skip_append after with hskip | ⟨hskip, hskip', -⟩
    · rw [hskip]
      cases hafter : flags.skip after with
      | nil => exact .inr ⟨after, _, rfl, hafter, rfl, rfl⟩
      | cons c ds =>
        refine .inl ?_
        show Agree _ (ite _ _ _) (ite _ _ _)
        split
        · exact .ok _
        · refine Agree.mono (local_untilBrace flags.verbose _ (fun name => ?_) after)
            (List.suffix_cons _ after)
          cases edgeNamed? name with
          | none => exact local_error _
          | some edge => exact local_ok _
    · rw [hskip, hskip']
      exact .inl (.fails _ _)
  · have hcs : ∀ rest, cs = '\x7b' :: rest → False := fun rest h => hbrace ⟨rest, h⟩
    have hplain {cs : List Char} (hcs : ∀ rest, cs = '\x7b' :: rest → False) :
        readBoundary flags cs = .ok (.look (.word .any flags.unicode), cs) := by
      unfold readBoundary
      split
      · next after => exact absurd rfl (hcs after)
      · rfl
    rw [hplain hcs, hplain (ne_cons_paren (by decide) hcs)]
    exact .inl (.ok _)

/-- An escape that is not finished, unless a parenthesis is behind it: a boundary before an open
    brace.  No count stands in that brace. -/
def Dangling (flags : Flags) (x y : Except PatternError (Atom × List Char)) : Prop :=
  ∃ after e, flags.skip after = [] ∧ x = .error e ∧
    y = .ok (.look (.word .any flags.unicode), '\x7b' :: (after ++ [')']))

/-- Escapes agree, but for a boundary with an open brace behind it. -/
theorem readEscape_paren (flags : Flags) (cs : List Char) :
    Agree cs (readEscape flags cs) (readEscape flags (cs ++ [')'])) ∨
      Dangling flags (readEscape flags cs) (readEscape flags (cs ++ [')'])) := by
  cases cs with
  | nil => exact .inl (.finishes _ _)
  | cons c cs =>
    have hlocal {f : List Char → Except PatternError (Atom × List Char)} (h : Local f) :
        Agree (c :: cs) (f cs) (f (cs ++ [')'])) := (h cs).mono (List.suffix_cons c cs)
    rw [List.cons_append, readEscape, readEscape]
    split
    · exact .inl (.fails _ _)
    split
    · exact .inl (hlocal (local_readHex flags c))
    split
    · exact .inl (hlocal (local_readProperty flags _))
    split
    · exact .inl (hlocal (local_ok _))
    split
    · exact .inl (hlocal (local_of_except (flags.negate true _) .set))
    split
    · rcases readBoundary_paren flags cs with h | ⟨after, e, rfl, hafter, h, h'⟩
      · exact .inl (h.mono (List.suffix_cons c cs))
      · exact .inr ⟨after, e, hafter, h, h'⟩
    split
    · exact .inl (hlocal (local_ok _))
    · exact .inl (hlocal (local_of_except (letterEscape flags c) id))

end RuleSieve.Regex
