/-
  How high the terms are that the readers accept.

  The depth is counted while a phrase is read and given back at its end, so a term that is finished
  has its levels back before an operator, an index or a method is put around it; and comparisons and
  calls take no level at all.  The levels therefore do not bound the height: with each level more,
  everything that can be wrapped around a term with the levels below it comes on top
  (`maxHeight`).
-/
import RuleSieve.Proofs.Completeness
import RuleSieve.Proofs.Trimming

namespace RuleSieve.Predicate

/-! ## Heights -/

mutual

/-- The number of nodes on the longest way from the root of a term to a leaf, which is how deep its
    evaluation goes. -/
def Term.height : Term → Nat
  | .literal _ | .name _ => 1
  | .neg operand | .not operand => operand.height + 1
  | .and left right | .or left right | .arith _ left right | .index left right =>
    max left.height right.height + 1
  | .compare first links => max first.height (heightOfLinks links) + 1
  | .call _ args => heightOfArgs args + 1
  | .method receiver _ args => max receiver.height (heightOfArgs args) + 1

/-- The height of the highest operand. -/
def heightOfLinks : List (CompareOp × Term) → Nat
  | [] => 0
  | (_, operand) :: links => max operand.height (heightOfLinks links)

/-- The height of the highest argument. -/
def heightOfArgs : List Term → Nat
  | [] => 0
  | arg :: args => max arg.height (heightOfArgs args)

end

theorem Term.height_pos (e : Term) : 0 < e.height := by
  cases e <;> rw [Term.height] <;> exact Nat.succ_pos _

/-- What is built from two operands is one higher than the higher of them. -/
theorem Chain.height_build {level : Chain} {t : Token} {build : Term → Term → Term}
    (h : level.build? t = some build) (left right : Term) :
    (build left right).height = max left.height right.height + 1 := by
  cases level <;> cases t <;> cases h <;> rw [Term.height]

theorem height_neg_repeat (k : Nat) (e : Term) :
    (Nat.repeat Term.neg k e).height = e.height + k := by
  induction k with
  | zero => rfl
  | succ k ih =>
    show (Term.neg (Nat.repeat Term.neg k e)).height = _
    rw [Term.height, ih, Nat.add_assoc]

/-! ## The bound -/

/-- How high a term can be that takes a number of levels. -/
def maxHeight : Nat → Nat
  | 0 => 0
  | n + 1 => maxHeight n + 5 * n + 2

theorem maxHeight_mono {m n : Nat} (h : m ≤ n) : maxHeight m ≤ maxHeight n := by
  induction h with
  | refl => exact Nat.le_refl _
  | step _ ih =>
    rw [maxHeight]
    omega

/-- The bound grows with the square of the levels. -/
theorem two_mul_maxHeight (n : Nat) : 2 * maxHeight n + n = 5 * (n * n) := by
  induction n with
  | zero => rfl
  | succ n ih =>
    have hsquare : (n + 1) * (n + 1) = n * n + 2 * n + 1 := by
      rw [Nat.add_mul, Nat.mul_add]
      omega
    rw [maxHeight, hsquare]
    omega

theorem maxHeight_maxDepth : maxHeight maxDepth = 163712 := by
  have hdepth : maxDepth = 256 := rfl
  have h := two_mul_maxHeight maxDepth
  generalize maxHeight maxDepth = height at h ⊢
  rw [hdepth] at h
  omega

/-- The height of what is made of a phrase. -/
def Phrase.height : (p : Phrase) → p.Yield → Nat
  | .links => heightOfLinks
  | .args | .argsFrom => heightOfArgs
  | .whole | .chain _ | .operand _ | .more _ _ | .negation | .comparison | .signed | .primary
  | .suffixes _ => Term.height

/-- How high an operand of the level can be. -/
def Chain.highest (n : Nat) : Chain → Nat
  | .product => maxHeight n + n + 1
  | .sum => maxHeight n + 2 * n + 1
  | .and => maxHeight n + 3 * n + 2
  | .or => maxHeight n + 4 * n + 2

/-- How high the terms of a phrase can be that takes a number of levels. -/
def Phrase.highest (n : Nat) : Phrase → Nat
  | .whole | .args | .argsFrom => maxHeight n
  | .primary => maxHeight n + 1
  | .suffixes target => max target.height (maxHeight n) + n
  | .signed => Chain.product.highest n
  | .links => Chain.sum.highest n + n
  | .comparison | .negation => Chain.and.highest n
  | .operand level => level.highest n
  | .chain level => level.highest n + n
  | .more level left => max left.height (level.highest n) + n

theorem Chain.highest_mono {level : Chain} {m n : Nat} (h : m ≤ n) :
    level.highest m ≤ level.highest n := by
  have hle := maxHeight_mono h
  cases level <;> simp only [Chain.highest] <;> omega

/-- The levels that a phrase takes bound its height. -/
theorem Derives.height_le {p : Phrase} {ts : List Token} {y : p.Yield} {n : Nat}
    (h : Derives p ts y n) : p.height y ≤ p.highest n := by
  induction h with
  | whole _ ih =>
    simp only [Phrase.height, Phrase.highest, Chain.highest, maxHeight] at ih ⊢
    omega
  | @chain level _ _ _ _ m n _ _ ihfirst ihmore =>
    have hm := level.highest_mono (Nat.le_max_left m n)
    have hn := level.highest_mono (Nat.le_max_right m n)
    simp only [Phrase.height, Phrase.highest] at ihfirst ihmore ⊢
    omega
  | noMore => exact Nat.le_max_left _ _
  | @more level left _ _ _ _ right _ m n hop _ _ ihright ihmore =>
    have hm := level.highest_mono (show m ≤ max m n + 1 by omega)
    have hn := level.highest_mono (show n ≤ max m n + 1 by omega)
    simp only [Phrase.height, Phrase.highest, Chain.height_build hop] at ihright ihmore ⊢
    omega
  | conjunction _ ih | conjunct _ ih | summand _ ih | factor _ ih | comparison _ ih | args _ ih =>
    simp only [Phrase.height, Phrase.highest, Chain.highest] at ih ⊢
    omega
  | @not _ _ n _ ih | @minus _ _ n _ ih =>
    have hn := maxHeight_mono (Nat.le_add_right n 1)
    simp only [Phrase.height, Phrase.highest, Chain.highest, Term.height] at ih ⊢
    omega
  | sum _ ih =>
    simp only [Phrase.height, Phrase.highest, Chain.highest] at ih ⊢
    omega
  | @compare _ _ _ _ _ m n _ _ ihfirst ihlinks =>
    have hm := maxHeight_mono (Nat.le_max_left m n)
    have hn := maxHeight_mono (Nat.le_max_right m n)
    simp only [Phrase.height, Phrase.highest, Chain.highest, Term.height] at ihfirst ihlinks ⊢
    omega
  | noLinks => simp [Phrase.height, heightOfLinks]
  | @link _ _ _ _ _ m n _ _ ihright ihlinks =>
    have hm := maxHeight_mono (Nat.le_max_left m n)
    have hn := maxHeight_mono (Nat.le_max_right m n)
    simp only [Phrase.height, Phrase.highest, Chain.highest, heightOfLinks] at ihright ihlinks ⊢
    omega
  | @plus _ _ n _ ih =>
    have hn := maxHeight_mono (Nat.le_add_right n 1)
    simp only [Phrase.height, Phrase.highest, Chain.highest] at ih ⊢
    omega
  | @unsigned _ _ _ _ m n _ _ ihprimary ihsuffixes =>
    have hm := maxHeight_mono (Nat.le_max_left m n)
    have hn := maxHeight_mono (Nat.le_max_right m n)
    simp only [Phrase.height, Phrase.highest, Chain.highest] at ihprimary ihsuffixes ⊢
    omega
  | noSuffixes => exact Nat.le_max_left _ _
  | @index _ _ _ _ _ m n _ _ ihindex ihsuffixes =>
    have hm := maxHeight_mono (show m ≤ max m n + 1 by omega)
    have hn := maxHeight_mono (show n ≤ max m n + 1 by omega)
    simp only [Phrase.height, Phrase.highest, Term.height] at ihindex ihsuffixes ⊢
    omega
  | @method _ _ _ _ _ _ m n _ _ ihargs ihsuffixes =>
    have hm := maxHeight_mono (show m ≤ max m n + 1 by omega)
    have hn := maxHeight_mono (show n ≤ max m n + 1 by omega)
    simp only [Phrase.height, Phrase.highest, Term.height] at ihargs ihsuffixes ⊢
    omega
  | noArgs => simp [Phrase.height, heightOfArgs]
  | lastArg _ ih =>
    simp only [Phrase.height, Phrase.highest, heightOfArgs] at ih ⊢
    omega
  | @arg _ _ _ _ m n _ _ ih ihargs =>
    have hm := maxHeight_mono (Nat.le_max_left m n)
    have hn := maxHeight_mono (Nat.le_max_right m n)
    simp only [Phrase.height, Phrase.highest, heightOfArgs] at ih ihargs ⊢
    omega
  | literal | name => simp [Phrase.height, Phrase.highest, Term.height]
  | call _ _ ih =>
    simp only [Phrase.height, Phrase.highest, Term.height] at ih ⊢
    omega
  | parens _ ih =>
    simp only [Phrase.height, Phrase.highest] at ih ⊢
    omega

/-! ## The bound is reached -/

/-- The token of an operator of the level. -/
def Chain.sign : Chain → Token
  | .or => .or
  | .and => .and
  | .sum => .plus
  | .product => .star

theorem Chain.build?_sign (level : Chain) : ∃ build, level.build? level.sign = some build := by
  cases level <;> exact ⟨_, rfl⟩

/-- A number is an operand of any level. -/
theorem Derives.operandOne (level : Chain) :
    Derives (.operand level) [.int 1] (.literal (.int 1)) 0 := by
  have hfactor := Derives.factor one
  have hsummand := Derives.summand (alone hfactor)
  have hconjunct := Derives.conjunct (.comparison (.sum (alone hsummand)))
  cases level with
  | product => exact hfactor
  | sum => exact hsummand
  | and => exact hconjunct
  | or => exact .conjunction (alone hconjunct)

/-- With each level more, one operator more goes around what was read. -/
theorem exists_more (level : Chain) (left : Term) (n : Nat) :
    ∃ ts e, Derives (.more level left) ts e n ∧ e.height = left.height + n := by
  induction n generalizing left with
  | zero => exact ⟨[], left, .noMore, rfl⟩
  | succ n ih =>
    obtain ⟨build, hbuild⟩ := level.build?_sign
    obtain ⟨ts, e, hmore, hheight⟩ := ih (build left (.literal (.int 1)))
    have hall := Derives.more hbuild (.operandOne level) hmore
    rw [Nat.zero_max] at hall
    refine ⟨_, e, hall, ?_⟩
    have hleft := left.height_pos
    rw [hheight, Chain.height_build hbuild, Term.height]
    omega

/-- The same for methods. -/
theorem exists_suffixes (target : Term) (n : Nat) :
    ∃ ts e, Derives (.suffixes target) ts e n ∧ e.height = target.height + n := by
  induction n generalizing target with
  | zero => exact ⟨[], target, .noSuffixes, rfl⟩
  | succ n ih =>
    obtain ⟨ts, e, hsuffixes, hheight⟩ := ih (.method target "m" [])
    have hall := Derives.method .noArgs hsuffixes
    rw [Nat.zero_max] at hall
    refine ⟨_, e, hall, ?_⟩
    rw [hheight, Term.height, heightOfArgs]
    omega

/-- Operators all around an operand. -/
theorem exists_chain (level : Chain) {ts : List Token} {first : Term} {n : Nat}
    (h : Derives (.operand level) ts first n) :
    ∃ us e, Derives (.chain level) us e n ∧ e.height = first.height + n := by
  obtain ⟨us, e, hmore, hheight⟩ := exists_more level first n
  have hchain := Derives.chain h hmore
  rw [Nat.max_self] at hchain
  exact ⟨_, e, hchain, hheight⟩

/-- Around a primary goes all that its levels allow. -/
theorem exists_whole_of_primary {ts : List Token} {first : Term} {n : Nat}
    (h : Derives .primary ts first n) :
    ∃ us e, Derives .whole us e (n + 1) ∧ e.height = first.height + 5 * n + 1 := by
  obtain ⟨us, e₁, hsuffixes, h₁⟩ := exists_suffixes first n
  have hsigned := Derives.unsigned h hsuffixes
  rw [Nat.max_self] at hsigned
  obtain ⟨us, e₂, hproduct, h₂⟩ := exists_chain .product (.factor hsigned)
  obtain ⟨us, e₃, hsum, h₃⟩ := exists_chain .sum (.summand hproduct)
  have hlink : Derives .links (CompareOp.less.tokens ++ [.int 1])
      [(.less, .literal (.int 1))] 0 := .link (.alone (.operandOne .sum)) .noLinks
  have hcompare := Derives.compare hsum hlink
  rw [Nat.max_zero] at hcompare
  obtain ⟨us, e₄, hand, h₄⟩ := exists_chain .and (.conjunct (.comparison hcompare))
  obtain ⟨us, e₅, hor, h₅⟩ := exists_chain .or (.conjunction hand)
  refine ⟨us, e₅, .whole hor, ?_⟩
  have hpos := e₃.height_pos
  simp only [Term.height, heightOfLinks] at h₄
  omega

/-- For any number of levels but none there is a term as high as can be. -/
theorem exists_height_eq (n : Nat) :
    ∃ ts e, Derives .whole ts e (n + 1) ∧ e.height = maxHeight (n + 1) := by
  induction n with
  | zero =>
    have hone : Derives .primary [.int 1] (.literal (.int 1)) 0 := .literal rfl
    obtain ⟨ts, e, hderives, hheight⟩ := exists_whole_of_primary hone
    exact ⟨ts, e, hderives, by rw [hheight, Term.height]; rfl⟩
  | succ n ih =>
    obtain ⟨ts, e, hderives, hheight⟩ := ih
    -- a call takes no level, but it is one node more
    have hdollar : "f".startsWith "$" = false := by simp
    have hcall := Derives.call hdollar (.args (.lastArg hderives))
    obtain ⟨us, e', hderives', hheight'⟩ := exists_whole_of_primary hcall
    refine ⟨us, e', hderives', ?_⟩
    rw [hheight', Term.height, heightOfArgs, heightOfArgs, hheight, maxHeight.eq_2 (n + 1)]
    omega

/-- Some tokens write a term as high as any can be. -/
theorem exists_parseTokens_height (stop : Nat) :
    ∃ ls e, parseTokens stop ls = .ok e ∧ e.height = maxHeight maxDepth := by
  obtain ⟨ts, e, hderives, hheight⟩ := exists_height_eq 255
  have htokens : tokensOf (ts.map fun t => ⟨0, [], t⟩) = ts := by simp [tokensOf, Function.comp_def]
  rw [← htokens] at hderives
  rcases parseTokens_ends stop hderives with ⟨-, hok⟩ | ⟨hdeep, -⟩
  · exact ⟨_, e, hok, hheight⟩
  · exact absurd (Nat.le_refl 256) hdeep

/-! ## Sources -/

theorem trim_replicate_minus (k : Nat) :
    Text.trim (List.replicate (k + 1) '-' ++ ['1', '+', '1']) =
      List.replicate (k + 1) '-' ++ ['1', '+', '1'] := by
  refine Text.trim_eq_self (fun c hc => ?_) (fun c hc => ?_)
  · obtain rfl : '-' = c := by simpa [List.replicate_succ] using hc
    decide
  · obtain rfl : '1' = c := by simpa using hc
    decide

theorem lexemesFrom_minus (offset : Nat) (cs : List Char) :
    lexemesFrom 0 offset ('-' :: cs) =
      lexemesFrom 0 (offset + 1) cs >>= fun more => .ok (⟨offset, ['-'], .minus⟩ :: more) := by
  have hdouble : cs.head?.bind (doubleSymbol? '-') = none := by
    cases cs <;> simp [doubleSymbol?]
  have htoken : readToken offset '-' cs = .ok (.minus, 0) := by
    simp only [readToken, readSymbol, hdouble]
    rfl
  rw [lexemesFrom, if_neg (by decide), if_neg (by decide), htoken]
  rfl

/-- Minus signs before a text are so many tokens. -/
theorem lexemesFrom_replicate_minus {cs : List Char} {ts : List Token}
    (h : ∀ offset, ∃ ls, lexemesFrom 0 offset cs = .ok ls ∧ tokensOf ls = ts) (k offset : Nat) :
    ∃ ls, lexemesFrom 0 offset (List.replicate k '-' ++ cs) = .ok ls ∧
      tokensOf ls = List.replicate k .minus ++ ts := by
  induction k generalizing offset with
  | zero => exact h offset
  | succ k ih =>
    obtain ⟨ls, hls, htokens⟩ := ih (offset + 1)
    refine ⟨⟨offset, ['-'], .minus⟩ :: ls, ?_, congrArg (Token.minus :: ·) htokens⟩
    rw [List.replicate_succ, List.cons_append, lexemesFrom_minus, hls]
    rfl

/-- One and one, the first behind minus signs. -/
def negatedSum (k : Nat) : String := String.ofList (List.replicate k '-' ++ ['1', '+', '1'])

theorem derives_negatedSum (k : Nat) : ∃ e,
    Derives .whole (List.replicate (k + 1) .minus ++ [.int 1, .plus, .int 1]) e (k + 2) ∧
      e.height = k + 3 := by
  have hfirst := Derives.one.signs (k + 1)
  have hop : Chain.sum.build? .plus = some (.arith .add) := rfl
  have hsum := Derives.chain (.summand (.alone (.factor hfirst)))
    (.more hop (.operandOne .sum) .noMore)
  have hwhole := Derives.ofComparison (.sum hsum)
  refine ⟨_, by simpa using hwhole, ?_⟩
  rw [Term.height, height_neg_repeat, Term.height]
  omega

/-- The term of such a source is one higher than the levels it takes. -/
theorem parse_negatedSum {k : Nat} (h : k + 2 ≤ maxDepth) :
    ∃ p, parse (negatedSum (k + 1)) = .ok p ∧ p.term.height = k + 3 := by
  have hone (offset : Nat) : ∃ ls, lexemesFrom 0 offset ['1', '+', '1'] = .ok ls ∧
      tokensOf ls = [.int 1, .plus, .int 1] := ⟨_, rfl, rfl⟩
  obtain ⟨ls, hls, htokens⟩ := lexemesFrom_replicate_minus hone (k + 1) 0
  have htrim : Text.trim (negatedSum (k + 1)).toList =
      List.replicate (k + 1) '-' ++ ['1', '+', '1'] := by
    rw [negatedSum, String.toList_ofList, trim_replicate_minus]
  obtain ⟨e, hderives, hheight⟩ := derives_negatedSum k
  rw [← htokens] at hderives
  exact ⟨_, parse_of_derives htrim hls hderives h, hheight⟩

/-! ## What the levels bound -/

/-- The term of a source is derived from its tokens, and is no higher than its levels allow; there
    are at most 256 of them. -/
theorem height_of_parse (source : String) (p : Predicate) (h : parse source = .ok p) :
    ∃ ls n, lexemes (Text.trim source.toList) = .ok ls ∧
      Derives .whole (tokensOf ls) p.term n ∧ n ≤ maxDepth ∧
      p.term.height ≤ maxHeight n ∧ maxHeight n ≤ 163712 := by
  obtain ⟨ls, hls, hparse, -⟩ := parse_eq_ok_iff.1 h
  obtain ⟨n, hn, hderives⟩ := derives_of_parseTokens hparse
  exact ⟨ls, n, hls, hderives, hn, hderives.height_le, maxHeight_maxDepth ▸ maxHeight_mono hn⟩

/-- The bound holds of the term of a source with a sign. -/
theorem height_of_parse_signed : ∃ p, parse (negatedSum 1) = .ok p ∧
    ∃ ls n, lexemes (Text.trim (negatedSum 1).toList) = .ok ls ∧
      Derives .whole (tokensOf ls) p.term n ∧ n ≤ maxDepth ∧
      p.term.height ≤ maxHeight n ∧ maxHeight n ≤ 163712 := by
  obtain ⟨p, hparse, -⟩ := parse_negatedSum (k := 0) (by decide)
  exact ⟨p, hparse, height_of_parse _ p hparse⟩

/-- With 255 minus signs the source is read, and its term is higher than the depth may be. -/
theorem exceeds_maxDepth_negatedSum :
    ∃ p, parse (negatedSum 255) = .ok p ∧ ¬ p.term.height ≤ maxDepth := by
  obtain ⟨p, hparse, hheight⟩ := parse_negatedSum (k := 254) (Nat.le_refl 256)
  refine ⟨p, hparse, ?_⟩
  rw [hheight]
  decide

end RuleSieve.Predicate
