/-
  What a closing parenthesis after a text changes for the readers of classes.

  A parenthesis is a member like any other there.  A class that is not closed before it is not closed
  with it either.
-/
import RuleSieve.Proofs.PatternTail

namespace RuleSieve.Regex

open Text (dropStart?)

variable {α : Type} {cs : List Char}

/-! ## The start of a class -/

/-- The fuel for hyphens does not matter, if there is enough of it. -/
theorem leadingHyphens_fuel (flags : Flags) {n m : Nat} (hn : cs.length ≤ n) (hm : cs.length ≤ m) :
    leadingHyphens flags n cs = leadingHyphens flags m cs := by
  induction n generalizing m cs with
  | zero =>
    obtain rfl := List.length_eq_zero_iff.1 (Nat.le_zero.1 hn)
    cases m <;> rfl
  | succ n ih =>
    cases m with
    | zero =>
      obtain rfl := List.length_eq_zero_iff.1 (Nat.le_zero.1 hm)
      rfl
    | succ m =>
      unfold leadingHyphens
      split
      · next more =>
        have hskip := (flags.skip_suffix more).length_le
        rw [List.length_cons] at hn hm
        rw [ih (m := m) (by omega) (by omega)]
      · rfl

/-- The hyphens at the start of a class, with fuel enough. -/
def hyphens (flags : Flags) (cs : List Char) : List Member × List Char :=
  leadingHyphens flags cs.length cs

/-- Hyphens at the start are members, one by one. -/
theorem hyphens_cons (flags : Flags) (cs : List Char) :
    hyphens flags ('-' :: cs) =
      (⟨.single '-', 0⟩ :: (hyphens flags (flags.skip cs)).1, (hyphens flags (flags.skip cs)).2) := by
  have hskip := (flags.skip_suffix cs).length_le
  rw [hyphens, hyphens, List.length_cons, leadingHyphens,
    leadingHyphens_fuel flags hskip (Nat.le_refl _)]

theorem hyphens_of_ne (flags : Flags) (h : ∀ rest, cs = '-' :: rest → False) :
    hyphens flags cs = ([], cs) := by
  cases cs with
  | nil => rfl
  | cons c cs =>
    rw [hyphens, List.length_cons, leadingHyphens]
    exact h

/-- The hyphens at the start of a class are the same with a parenthesis behind the text. -/
theorem agree_hyphens (flags : Flags) (cs : List Char) :
    Agree cs (.ok (hyphens flags cs)) (.ok (hyphens flags (cs ++ [')']))) := by
  induction hn : cs.length using Nat.strongRecOn generalizing cs with
  | _ n ih =>
    by_cases hcs : ∃ rest, cs = '-' :: rest
    · obtain ⟨rest, rfl⟩ := hcs
      have hlt : (flags.skip rest).length < n := by
        have hle := (flags.skip_suffix rest).length_le
        rw [List.length_cons] at hn
        omega
      have hrest := (ih _ hlt _ rfl).mono
        ((flags.skip_suffix rest).trans (List.suffix_cons '-' rest))
      rw [List.cons_append, hyphens_cons, hyphens_cons]
      rcases flags.skip_append rest with hskip | ⟨hskip, hskip', hhash⟩
      · rw [hskip]
        exact hrest.andThen (f := fun r => .ok (⟨.single '-', 0⟩ :: r.1, r.2)) fun members =>
          local_ok (⟨.single '-', 0⟩ :: members)
      · rw [hskip, hskip']
        exact .swallows _ (List.mem_cons_of_mem '-' hhash)
    · have hcs : ∀ rest, cs = '-' :: rest → False := fun rest h => hcs ⟨rest, h⟩
      rw [hyphens_of_ne flags hcs, hyphens_of_ne flags (ne_cons_paren (by decide) hcs)]
      exact .ok []

/-- Like `Agree`, but a class that has been opened only may be left before the parenthesis. -/
def AgreeOpen (cs : List Char) (x y : Except PatternError (α × List Char)) : Prop :=
  Agree cs x y ∨ ∃ e a, x = .error e ∧ y = .ok (a, [')'])

/-- What agrees on a text agrees on every text that ends with it. -/
theorem AgreeOpen.mono {ds : List Char} {x y : Except PatternError (α × List Char)}
    (h : AgreeOpen cs x y) (hsuffix : cs <:+ ds) : AgreeOpen ds x y :=
  h.imp_left (·.mono hsuffix)

/-- Hyphens, or the lack of them, before anything but a bracket that may stand there. -/
theorem startMembers_of_ne (flags : Flags) (negated : Bool) {members : List Member} {c : Char}
    {rest : List Char} (h : hyphens flags cs = (members, c :: rest))
    (hne : ¬ (members = [] ∧ c = ']')) :
    startMembers flags negated cs = .ok ((negated, members), c :: rest) := by
  unfold startMembers
  rw [show leadingHyphens flags cs.length cs = (members, c :: rest) from h]
  split
  · next heq => cases heq
  · next heq =>
    cases heq
    exact absurd ⟨rfl, rfl⟩ hne
  · next heq =>
    cases heq
    rfl

/-- A bracket that comes first, without hyphens, is a member of the class. -/
theorem startMembers_of_bracket (flags : Flags) (negated : Bool) {rest : List Char}
    (h : hyphens flags cs = ([], ']' :: rest)) :
    startMembers flags negated cs =
      if flags.skip rest = [] then malformed "the class is not closed"
      else .ok ((negated, [⟨.single ']', 0⟩]), flags.skip rest) := by
  unfold startMembers
  rw [show leadingHyphens flags cs.length cs = ([], ']' :: rest) from h]
  split
  · next heq => cases heq
  · next heq =>
    cases heq
    cases flags.skip rest <;> rfl
  · next hbracket heq =>
    cases heq
    exact absurd rfl (hbracket rest rfl)

/-- A class of which there are only hyphens is not closed. -/
theorem startMembers_of_nil (flags : Flags) (negated : Bool) {members : List Member}
    (h : hyphens flags cs = (members, [])) :
    startMembers flags negated cs = malformed "the class is not closed" := by
  unfold startMembers
  rw [show leadingHyphens flags cs.length cs = (members, []) from h]

/-- The start of a class is read in the same way, or there is nothing of the class but its start. -/
theorem agreeOpen_startMembers (flags : Flags) (negated : Bool) (cs : List Char) :
    AgreeOpen cs (startMembers flags negated cs) (startMembers flags negated (cs ++ [')'])) := by
  have h := agree_hyphens flags cs
  cases hr : hyphens flags cs with | mk members rest =>
  cases hr' : hyphens flags (cs ++ [')']) with | mk members' rest' =>
  rw [hr, hr'] at h
  cases h with
  | swallows _ hhash =>
    rw [startMembers_of_nil flags negated hr, startMembers_of_nil flags negated hr']
    exact .inl (.fails _ _)
  | goesOn _ hsuffix =>
    cases rest with
    | nil =>
      rw [startMembers_of_nil flags negated hr,
        startMembers_of_ne flags negated (c := ')') hr' (by simp)]
      exact .inr ⟨_, _, rfl, rfl⟩
    | cons c rest =>
      by_cases hbracket : members = [] ∧ c = ']'
      · obtain ⟨rfl, rfl⟩ := hbracket
        have hrest := (List.suffix_cons ']' rest).trans hsuffix
        rw [List.cons_append] at hr'
        rw [startMembers_of_bracket flags negated hr, startMembers_of_bracket flags negated hr']
        rcases flags.skip_append rest with hskip | ⟨hskip, hskip', -⟩
        · rw [hskip, if_neg (by simp : flags.skip rest ++ [')'] ≠ [])]
          have hskipped := (flags.skip_suffix rest).trans hrest
          split
          · next hnil => exact .inr ⟨_, _, rfl, by rw [hnil]; rfl⟩
          · exact .inl (.goesOn _ hskipped)
        · rw [hskip, hskip', if_pos rfl]
          exact .inl (.fails _ _)
      · rw [startMembers_of_ne flags negated hr hbracket,
          startMembers_of_ne flags negated hr' hbracket]
        exact .inl (.goesOn _ hsuffix)

/-- A caret at the start negates the class. -/
theorem openClass_of_caret (flags : Flags) {rest : List Char} (h : flags.skip cs = '^' :: rest) :
    openClass flags cs = startMembers flags true (flags.skip rest) := by
  rw [openClass, h]
  rfl

theorem openClass_of_ne (flags : Flags) (h : ∀ rest, flags.skip cs = '^' :: rest → False) :
    openClass flags cs = startMembers flags false (flags.skip cs) := by
  rw [openClass]
  split
  · next heq => exact absurd heq (h _)
  · rfl

/-- The same with the caret that may come before it. -/
theorem agreeOpen_openClass (flags : Flags) (cs : List Char) :
    AgreeOpen cs (openClass flags cs) (openClass flags (cs ++ [')'])) := by
  have hstart (negated : Bool) (cs : List Char) :
      AgreeOpen cs (startMembers flags negated (flags.skip cs))
        (startMembers flags negated (flags.skip (cs ++ [')']))) := by
    rcases flags.skip_append cs with hskip | ⟨hskip, hskip', -⟩
    · rw [hskip]
      exact (agreeOpen_startMembers flags negated _).mono (flags.skip_suffix cs)
    · rw [hskip, hskip']
      exact .inl (.fails _ _)
  by_cases hcaret : ∃ rest, flags.skip cs = '^' :: rest
  · obtain ⟨rest, hrest⟩ := hcaret
    have hrest' : flags.skip (cs ++ [')']) = '^' :: (rest ++ [')']) := by
      rcases flags.skip_append cs with hskip | ⟨hskip, -, -⟩
      · rw [hskip, hrest, List.cons_append]
      · rw [hskip] at hrest
        cases hrest
    rw [openClass_of_caret flags hrest, openClass_of_caret flags hrest']
    exact (hstart true rest).mono
      ((List.suffix_cons '^' rest).trans (hrest ▸ flags.skip_suffix cs))
  · have hcs : ∀ rest, flags.skip cs = '^' :: rest → False := fun rest h => hcaret ⟨rest, h⟩
    have hcs' : ∀ rest, flags.skip (cs ++ [')']) = '^' :: rest → False := by
      rcases flags.skip_append cs with hskip | ⟨-, hskip', -⟩
      · rw [hskip]
        exact ne_cons_paren (by decide) hcs
      · rw [hskip']
        exact fun rest h => by cases h
    rw [openClass_of_ne flags hcs, openClass_of_ne flags hcs']
    exact hstart false cs

/-! ## Members of classes -/

theorem readSetOp?_singleton (c : Char) : readSetOp? [c] = none := by
  unfold readSetOp?
  split
  · next heq => cases heq
  · next heq => cases heq
  · next heq => cases heq
  · rfl

/-- A parenthesis is no part of an operator on classes. -/
theorem readSetOp?_paren (cs : List Char) :
    readSetOp? (cs ++ [')']) = (readSetOp? cs).map fun r => (r.1, r.2 ++ [')']) := by
  match cs with
  | [] => rfl
  | [c] =>
    unfold readSetOp?
    split
    · next heq => cases heq
    · next heq => cases heq
    · next heq => cases heq
    · exact (congrArg (Option.map _) (readSetOp?_singleton c)).symm
  | c :: d :: cs =>
    unfold readSetOp?
    simp only [List.cons_append]
    split
    · next heq =>
      cases heq
      rfl
    · next heq =>
      cases heq
      rfl
    · next heq =>
      cases heq
      rfl
    · next hinter hdiff hsymm =>
      split
      · next heq =>
        cases heq
        exact absurd rfl (hinter _)
      · next heq =>
        cases heq
        exact absurd rfl (hdiff _)
      · next heq =>
        cases heq
        exact absurd rfl (hsymm _)
      · rfl

/-- An operator on classes is not empty. -/
theorem readSetOp?_suffix {op : SetOp} {rest : List Char} (h : readSetOp? cs = some (op, rest)) :
    rest <:+ cs ∧ rest.length < cs.length := by
  unfold readSetOp? at h
  split at h <;> cases h <;>
    exact ⟨(List.suffix_cons _ _).trans (List.suffix_cons _ _),
      Nat.lt_succ_of_lt (Nat.lt_succ_self _)⟩

/-- The name of a class ends with its colon and bracket. -/
theorem readClassName?_paren (flags : Flags) (negated : Bool) (cs : List Char) :
    readClassName? flags negated (cs ++ [')']) =
      (readClassName? flags negated cs).map fun r => (r.1, r.2 ++ [')']) := by
  unfold readClassName?
  rcases span_paren (p := (· != ':')) (by decide) cs with ⟨h, h'⟩ | ⟨d, rest, h, h', hname⟩
  · rw [h, h']
    rfl
  · rw [h, h', hname, ← List.cons_append, dropStart?_paren (by decide)]
    cases dropStart? [':', ']'] (d :: rest) with
    | none => rfl
    | some after => cases CharSet.named? (String.ofList (cs.takeWhile (· != ':'))) <;> rfl

theorem readClassName?_suffix {flags : Flags} {negated : Bool} {set : Except PatternError CharSet}
    {rest : List Char} (h : readClassName? flags negated cs = some (set, rest)) : rest <:+ cs := by
  unfold readClassName? at h
  split at h
  · next hdrop _ =>
    cases h
    exact (dropStart?_suffix hdrop).trans (List.dropWhile_suffix _)
  · cases h

/-- A class that is named in brackets is read in the same way, or is not one. -/
theorem namedClass?_paren (flags : Flags) (cs : List Char) :
    namedClass? flags (cs ++ [')']) = (namedClass? flags cs).map fun r => (r.1, r.2 ++ [')']) := by
  unfold namedClass?
  rw [dropStart?_paren (by decide)]
  cases dropStart? [':'] cs with
  | none => rfl
  | some rest =>
    simp only [Option.map_some, Option.bind_some]
    rw [dropStart?_paren (by decide)]
    cases dropStart? ['^'] rest with
    | none => exact readClassName?_paren flags false rest
    | some rest => exact readClassName?_paren flags true rest

theorem namedClass?_suffix {flags : Flags} {set : Except PatternError CharSet} {rest : List Char}
    (h : namedClass? flags cs = some (set, rest)) : rest <:+ cs := by
  obtain ⟨after, hafter, h⟩ := Option.bind_eq_some_iff.1 h
  refine List.IsSuffix.trans ?_ (dropStart?_suffix hafter)
  split at h
  · next hcaret => exact (readClassName?_suffix h).trans (dropStart?_suffix hcaret)
  · exact readClassName?_suffix h

/-- A member of a class is read in the same way, unless an escape is cut off before the
    parenthesis. -/
theorem readClassAtom_cons_paren (flags : Flags) (c : Char) (cs : List Char) :
    Agree cs (readClassAtom flags (c :: cs)) (readClassAtom flags (c :: (cs ++ [')']))) ∨
      Dangling flags (readClassAtom flags (c :: cs))
        (readClassAtom flags (c :: (cs ++ [')']))) := by
  by_cases hescape : c = '\\'
  · subst hescape
    exact readEscape_paren flags cs
  · have hplain (ds : List Char) : readClassAtom flags (c :: ds) = .ok (.literal c, ds) := by
      rw [readClassAtom]
      simpa using hescape
    rw [hplain, hplain]
    exact .inl (.ok _)

theorem readClassAtom_paren (flags : Flags) (cs : List Char) :
    Agree cs (readClassAtom flags cs) (readClassAtom flags (cs ++ [')'])) ∨
      Dangling flags (readClassAtom flags cs) (readClassAtom flags (cs ++ [')'])) := by
  cases cs with
  | nil => exact .inl (.finishes _ _)
  | cons c cs =>
    exact (readClassAtom_cons_paren flags c cs).imp_left (·.mono (List.suffix_cons c cs))

/-- Whether a hyphen makes a range is seen before the parenthesis. -/
theorem rangeFollows_paren (flags : Flags) (cs : List Char) :
    rangeFollows flags (cs ++ [')']) = rangeFollows flags cs := by
  by_cases hhyphen : ∃ next, cs = '-' :: next
  · obtain ⟨next, rfl⟩ := hhyphen
    rw [List.cons_append, rangeFollows, rangeFollows]
    rcases flags.skip_append next with hskip | ⟨hskip, hskip', -⟩
    · rw [hskip]
      cases flags.skip next with
      | nil => rfl
      | cons d ds =>
        rw [List.cons_append]
        split
        · next heq =>
          cases heq
          rfl
        · next heq =>
          cases heq
          rfl
        · next hbracket hhyphen =>
          split
          · next heq =>
            cases heq
            exact absurd rfl (hbracket _)
          · next heq =>
            cases heq
            exact absurd rfl (hhyphen _)
          · rfl
    · rw [hskip', hskip]
  · have hcs : ∀ rest, cs = '-' :: rest → False := fun rest h => hhyphen ⟨rest, h⟩
    rw [rangeFollows, rangeFollows]
    · exact hcs
    · exact ne_cons_paren (by decide) hcs

/-- A range, from the atom before it on. -/
theorem agree_rangeTo (flags : Flags) (atom : Atom) (cs : List Char) :
    Agree cs
      (readClassAtom flags cs >>= fun r => atom.rangeTo flags r.1 >>= fun m => .ok (m, r.2))
      (readClassAtom flags (cs ++ [')']) >>= fun r =>
        atom.rangeTo flags r.1 >>= fun m => .ok (m, r.2)) := by
  rcases readClassAtom_paren flags cs with h | ⟨after, e, -, hx, hy⟩
  · exact h.andThen fun last => local_of_except (atom.rangeTo flags last) id
  · rw [hx, hy]
    have hlook : atom.rangeTo flags (.look (.word .any flags.unicode)) =
        .error (.malformed "a range needs two characters") := by
      cases atom <;> rfl
    show Agree cs (.error e) (atom.rangeTo flags (.look (.word .any flags.unicode)) >>= _)
    rw [hlook]
    exact .fails _ _

/-- What a member is once its first atom is read.  Nothing may be left but the parenthesis. -/
theorem agreeOpen_readMemberFrom (flags : Flags) (atom : Atom) (cs : List Char) :
    AgreeOpen cs (readMemberFrom flags atom cs) (readMemberFrom flags atom (cs ++ [')'])) := by
  cases cs with
  | nil =>
    show AgreeOpen [] (.error _) (atom.member flags >>= fun m => .ok (m, [')']))
    cases atom.member flags with
    | error e => exact .inl (.fails _ _)
    | ok m => exact .inr ⟨_, m, rfl, rfl⟩
  | cons c cs =>
    rw [readMemberFrom, readMemberFrom, rangeFollows_paren]
    show AgreeOpen _ (ite (rangeFollows flags (c :: cs)) _ _) (ite (rangeFollows flags (c :: cs)) _ _)
    split
    · refine .inl (Agree.mono ?_ (List.suffix_cons c cs))
      rcases flags.skip_append cs with hskip | ⟨hskip, hskip', -⟩
      · show Agree cs (readClassAtom flags (flags.skip cs) >>= _)
          (readClassAtom flags (flags.skip (cs ++ [')'])) >>= _)
        rw [hskip]
        exact (agree_rangeTo flags atom _).mono (flags.skip_suffix cs)
      · show Agree cs (readClassAtom flags (flags.skip cs) >>= _)
          (readClassAtom flags (flags.skip (cs ++ [')'])) >>= _)
        rw [hskip, hskip']
        exact .fails _ _
    · exact .inl (local_of_except (atom.member flags) id (c :: cs))

/-- A member, from its first character on. -/
theorem agreeOpen_readMember (flags : Flags) (c : Char) (cs : List Char) :
    AgreeOpen cs (readMember flags (c :: cs)) (readMember flags (c :: (cs ++ [')']))) := by
  have hnil (atom : Atom) : readMemberFrom flags atom (flags.skip []) =
      .error (.malformed "the class is not closed") := by
    rw [flags.skip_nil]
    rfl
  rcases readClassAtom_cons_paren flags c cs with h | ⟨after, e, -, hx, hy⟩
  · unfold readMember
    generalize readClassAtom flags (c :: cs) = x at h ⊢
    generalize readClassAtom flags (c :: (cs ++ [')'])) = y at h ⊢
    cases h with
    | fails e e' => exact .inl (.fails e e')
    | @goesOn atom rest hsuffix =>
      show AgreeOpen cs (readMemberFrom flags atom (flags.skip rest))
        (readMemberFrom flags atom (flags.skip (rest ++ [')'])))
      rcases flags.skip_append rest with hskip | ⟨hskip, hskip', -⟩
      · rw [hskip]
        exact (agreeOpen_readMemberFrom flags atom _).mono ((flags.skip_suffix rest).trans hsuffix)
      · rw [hskip, hskip']
        exact .inl (.fails _ _)
    | swallows atom _ =>
      show AgreeOpen cs (readMemberFrom flags atom (flags.skip []))
        (readMemberFrom flags atom (flags.skip []))
      rw [hnil]
      exact .inl (.fails _ _)
    | finishes e atom =>
      show AgreeOpen cs (.error e) (readMemberFrom flags atom (flags.skip []))
      rw [hnil]
      exact .inl (.fails _ _)
  · rw [readMember, hx, readMember, hy]
    show AgreeOpen cs (.error e) (readMemberFrom flags _ (flags.skip ('\x7b' :: (after ++ [')']))))
    rw [flags.skip_cons (by decide) (by decide)]
    exact .inl (.fails _ _)

/-! ## Whole classes -/

/-- Blanks that verbose mode skips are skipped before the next member anyhow. -/
theorem readMembers_skip (flags : Flags) (fuel : Nat) (members : List Member)
    (frames : List ClassFrame) (cs : List Char) :
    readMembers flags fuel members frames (flags.skip cs) =
      readMembers flags fuel members frames cs := by
  cases fuel with
  | zero => rfl
  | succ fuel => rw [readMembers, readMembers, flags.skip_skip]

/-- A class that is not closed at the end of the text is refused. -/
theorem readMembers_nil (flags : Flags) (fuel : Nat) (members : List Member)
    (frames : List ClassFrame) :
    readMembers flags fuel members frames [] = .error (.malformed "the class is not closed") := by
  cases fuel with
  | zero => rfl
  | succ fuel =>
    rw [readMembers, flags.skip_nil]
    rfl

/-- A parenthesis at the end is a member of a class that is not closed. -/
theorem readMembers_paren (flags : Flags) (fuel : Nat) (members : List Member)
    (frames : List ClassFrame) :
    readMembers flags fuel members frames [')'] =
      .error (.malformed "the class is not closed") := by
  cases fuel with
  | zero => rfl
  | succ fuel =>
    have hmember : readMember flags [')'] = .error (.malformed "the class is not closed") := by
      show readMemberFrom flags (.literal ')') (flags.skip []) = _
      rw [flags.skip_nil]
      rfl
    rw [readMembers, flags.skip_cons (by decide) (by decide)]
    show (readMember flags [')'] >>= fun r => _) = _
    rw [hmember]
    rfl

/-- Where no operation and no bracket stands, a member does. -/
theorem readMembers_member {flags : Flags} {fuel : Nat} {members : List Member}
    {frames : List ClassFrame} {c : Char} {ds : List Char} (hclean : flags.skip (c :: ds) = c :: ds)
    (hop : readSetOp? (c :: ds) = none) (hopen : c ≠ '[') (hclose : c ≠ ']') :
    readMembers flags (fuel + 1) members frames (c :: ds) =
      readMember flags (c :: ds) >>= fun r =>
        readMembers flags fuel (r.1 :: members) frames r.2 := by
  rw [readMembers, hclean, hop]
  dsimp only
  split
  · next heq => cases heq
  · next heq =>
    cases heq
    exact absurd rfl hopen
  · next heq =>
    cases heq
    exact absurd rfl hclose
  · rfl

/-- Members go on after a part of a class that is read to the same place, or not at all. -/
theorem AgreeOpen.thenMembers {x y : Except PatternError (α × List Char)}
    (h : AgreeOpen cs x y) (flags : Flags) {fuel fuel' : Nat} (members : α → List Member)
    (frames : α → List ClassFrame)
    (hgo : ∀ a rest, rest <:+ cs →
      Agree rest (readMembers flags fuel (members a) (frames a) rest)
        (readMembers flags fuel' (members a) (frames a) (rest ++ [')']))) :
    Agree cs (x >>= fun r => readMembers flags fuel (members r.1) (frames r.1) r.2)
      (y >>= fun r => readMembers flags fuel' (members r.1) (frames r.1) r.2) := by
  rcases h with h | ⟨e, a, rfl, rfl⟩
  · refine h.bind hgo fun a => ?_
    rw [readMembers_nil, readMembers_nil]
  · show Agree cs (.error e) (readMembers _ _ _ _ [')'])
    rw [readMembers_paren]
    exact .fails _ _

/-- Members are read alike with the parenthesis behind them: it may be one more member, but it never
    closes the class. -/
theorem agree_readMembers (flags : Flags) {fuel fuel' : Nat} (members : List Member)
    (frames : List ClassFrame) (hfuel : cs.length < fuel) (hfuel' : cs.length < fuel') :
    Agree cs (readMembers flags fuel members frames cs)
      (readMembers flags fuel' members frames (cs ++ [')'])) := by
  induction hn : cs.length using Nat.strongRecOn generalizing cs fuel fuel' members frames with
  | _ n ih =>
  subst hn
  -- what stands first decides, once blanks and comments are skipped
  rw [← readMembers_skip flags fuel, ← readMembers_skip flags fuel']
  rcases flags.skip_append cs with hskip | ⟨hskip, hskip', -⟩
  · have hle := (flags.skip_suffix cs).length_le
    refine Agree.mono ?_ (flags.skip_suffix cs)
    have hclean := flags.skip_skip cs
    have hclean' := flags.skip_paren hclean
    rw [hskip]
    generalize flags.skip cs = ds at hle hclean hclean'
    match fuel, fuel', hfuel, hfuel' with
    | fuel + 1, fuel' + 1, hfuel, hfuel' =>
    -- what is left after a part that has at least one character
    have hrest {rest : List Char} (hrest : rest.length < ds.length) (members : List Member)
        (frames : List ClassFrame) :
        Agree rest (readMembers flags fuel members frames rest)
          (readMembers flags fuel' members frames (rest ++ [')'])) :=
      ih _ (by omega) members frames (by omega) (by omega) rfl
    cases ds with
    | nil =>
      rw [readMembers_nil, List.nil_append, readMembers_paren]
      exact .fails _ _
    | cons c ds =>
      have htail {rest : List Char} (h : rest <:+ ds) (members : List Member)
          (frames : List ClassFrame) :
          Agree rest (readMembers flags fuel members frames rest)
            (readMembers flags fuel' members frames (rest ++ [')'])) :=
        hrest (Nat.lt_succ_of_le h.length_le) members frames
      have hop := readSetOp?_paren (c :: ds)
      rw [List.cons_append] at hclean' hop ⊢
      cases hsign : readSetOp? (c :: ds) with
      | some r =>
        rw [readMembers, readMembers, hclean, hclean', hop, hsign]
        obtain ⟨hsuffix, hlt⟩ := readSetOp?_suffix hsign
        exact (hrest hlt _ _).mono hsuffix
      | none =>
        rw [hsign, Option.map_none] at hop
        by_cases hopen : c = '['
        · subst hopen
          rw [readMembers, readMembers, hclean, hclean', hop, hsign]
          simp only
          rw [namedClass?_paren]
          cases hnamed : namedClass? flags ds with
          | some r =>
            obtain ⟨set, rest⟩ := r
            cases set with
            | error e => exact .fails e e
            | ok set =>
              have hsuffix := namedClass?_suffix hnamed
              exact (htail hsuffix _ _).mono (hsuffix.trans (List.suffix_cons _ _))
          | none =>
            exact ((agreeOpen_openClass flags ds).thenMembers flags (fun r => r.2.reverse)
              (fun r => .bracket r.1 members :: frames) fun _ _ h => htail h _ _).mono
                (List.suffix_cons _ _)
        · by_cases hclose : c = ']'
          · subst hclose
            rw [readMembers, readMembers, hclean, hclean', hop, hsign]
            dsimp only
            cases closeOperation (.join members) frames with | mk inside frames =>
            cases frames with
            | nil => exact .fails _ _
            | cons frame frames =>
              cases frame with
              | operation op left => exact .fails _ _
              | bracket negated before =>
                show Agree _ (flags.negate negated inside.set >>= _)
                  (flags.negate negated inside.set >>= _)
                cases flags.negate negated inside.set with
                | error e => exact .fails e e
                | ok set =>
                  refine Agree.mono ?_ (List.suffix_cons ']' ds)
                  show Agree ds (ite _ _ _) (ite _ _ _)
                  split
                  · exact .ok _
                  · exact htail (List.suffix_refl ds) _ _
          · rw [readMembers_member hclean hsign hopen hclose,
              readMembers_member hclean' hop hopen hclose]
            exact ((agreeOpen_readMember flags c ds).thenMembers flags (fun m => m :: members)
              (fun _ => frames) fun _ _ h => htail h _ _).mono (List.suffix_cons _ _)
  · rw [hskip, hskip', readMembers_nil, readMembers_nil]
    exact .fails _ _

/-- A class is closed before the parenthesis or not at all. -/
theorem local_readClass (flags : Flags) : Local (readClass flags) := by
  intro cs
  unfold readClass
  rcases agreeOpen_openClass flags cs with h | ⟨e, a, hx, hy⟩
  · refine h.bind (fun start rest _ => ?_) fun start => ?_
    · have hlt : rest.length < (rest ++ [')']).length + 1 := by
        rw [List.length_append]
        omega
      exact agree_readMembers flags start.2.reverse _ (Nat.lt_succ_self _) hlt
    · rfl
  · rw [hx, hy]
    show Agree cs (.error e) (readMembers flags _ _ _ [')'])
    rw [readMembers_paren]
    exact .fails _ _

end RuleSieve.Regex
