/-
  What a fix becomes, and when there is none.

  A fix is made from the one reading of its template, piece by piece: a token takes the text of the
  longest bound name that it begins with, and goes on with what is left of it; nothing that was put in
  is read again (`fillFix_singlePass`).  A token that no bound name begins is left as it is, unless it
  has the shape of a metavariable, which is a fault.

  So a metavariable that is not bound itself is a fault only if no other bound name begins it.  Where
  one does, its text is put in and the fix is made (`refusesUnbound_iff`).
-/
import RuleSieve.Proofs.Outcome
import RuleSieve.Proofs.Pieces
import RuleSieve.Proofs.Table

namespace RuleSieve

theorem Text.dropStart?_eq_none_iff {start text : List Char} :
    dropStart? start text = none ↔ ¬ start <+: text := by
  rw [← Option.not_isSome_iff_eq_none, Option.isSome_iff_exists, not_iff_not]
  exact exists_congr fun rest => by rw [dropStart?_eq_some_iff, eq_comm]

namespace Template

/-! ## The shape of a metavariable -/

/-- A capital or an underscore. -/
def IsNameStart (c : Char) : Prop := ('A' ≤ c ∧ c ≤ 'Z') ∨ c = '_'

/-- A dollar sign, perhaps three dots, and a name of capitals, digits and underscores that does not
    begin with a digit. -/
def IsMetavariable (token : List Char) : Prop :=
  ∃ dots first others, token = '$' :: (dots ++ first :: others) ∧ IsDots dots ∧
    IsNameStart first ∧ ∀ c ∈ others, IsNameStart c ∨ ('0' ≤ c ∧ c ≤ '9')

/-- Names of metavariables start with a capital or an underscore. -/
theorem isNameStart_iff {c : Char} : isNameStart c = true ↔ IsNameStart c := by
  simp [isNameStart, IsNameStart]

theorem isNameChar_of_isNameStart {c : Char} (h : IsNameStart c ∨ ('0' ≤ c ∧ c ≤ '9')) :
    IsNameChar c := by
  rcases h with (h | h) | h
  · exact .inl h
  · exact .inr (.inr (.inr h))
  · exact .inr (.inr (.inl h))

theorem isNameChar_of_mem {first : Char} {others : List Char} (hfirst : IsNameStart first)
    (hothers : ∀ c ∈ others, IsNameStart c ∨ ('0' ≤ c ∧ c ≤ '9')) :
    ∀ c ∈ first :: others, IsNameChar c := by
  intro c hc
  rcases List.mem_cons.1 hc with rfl | hc
  · exact isNameChar_of_isNameStart (.inl hfirst)
  · exact isNameChar_of_isNameStart (hothers c hc)

/-- A metavariable is a token, as its name is made of characters of names. -/
theorem IsMetavariable.isToken {token : List Char} (h : IsMetavariable token) : IsToken token := by
  obtain ⟨dots, first, others, rfl, hdots, hfirst, hothers⟩ := h
  exact ⟨dots, first :: others, rfl, hdots, List.cons_ne_nil _ _, isNameChar_of_mem hfirst hothers⟩

/-- The check of a token finds out whether it has the shape of a metavariable. -/
theorem isMetavariable_iff {token : List Char} :
    isMetavariable token = true ↔ IsMetavariable token := by
  constructor
  · intro h
    unfold isMetavariable at h
    split at h
    · next body =>
      split at h
      · cases h
      · next first others hbody =>
        simp only [Bool.and_eq_true, List.all_eq_true, Bool.or_eq_true, decide_eq_true_eq,
          isNameStart_iff] at h
        have htext := cutDots_append body
        rw [hbody] at htext
        exact ⟨(cutDots body).1, first, others, by rw [htext], isDots_cutDots body, h.1, h.2⟩
    · cases h
  · rintro ⟨dots, first, others, rfl, hdots, hfirst, hothers⟩
    have hcut : cutDots (dots ++ first :: others) = (dots, first :: others) := by
      have hname : cutDots (dots ++ first :: others ++ []) = (dots, first :: others ++ []) :=
        cutDots_append_name hdots (List.cons_ne_nil _ _) (isNameChar_of_mem hfirst hothers)
      rwa [List.append_nil, List.append_nil] at hname
    simp only [isMetavariable, hcut, Bool.and_eq_true, List.all_eq_true, Bool.or_eq_true,
      decide_eq_true_eq, isNameStart_iff]
    exact ⟨hfirst, hothers⟩

/-- A metavariable with capitals behind it is another metavariable. -/
theorem IsMetavariable.append_replicate {token : List Char} (h : IsMetavariable token) (n : Nat) :
    IsMetavariable (token ++ List.replicate n 'A') := by
  obtain ⟨dots, first, others, rfl, hdots, hfirst, hothers⟩ := h
  refine ⟨dots, first, others ++ List.replicate n 'A', by simp, hdots, hfirst, fun c hc => ?_⟩
  rcases List.mem_append.1 hc with hc | hc
  · exact hothers c hc
  · obtain rfl := List.eq_of_mem_replicate hc
    exact .inl (.inl (by decide))

/-! ## What pieces become -/

/-- No bound name begins the token. -/
def Unmet (m : Match) (token : List Char) : Prop :=
  ∀ entry ∈ m.bindings, ¬ entry.1.toList <+: token

/-- The token has the shape of a metavariable, and no bound name begins it. -/
def Misses (m : Match) (token : List Char) : Prop := IsMetavariable token ∧ Unmet m token

/-- The token begins with the bound name, `rest` is left of it, and no longer name of the table begins
    it. -/
structure BeginsWith (token : List Char) (d : Dict Binding) (name : String) (binding : Binding)
    (rest : List Char) : Prop where
  mem : (name, binding) ∈ d
  text : token = name.toList ++ rest
  longest : ∀ entry ∈ d, entry.1.toList <+: token → entry.1.length ≤ name.length

/-- What a piece of a fix becomes: the longest bound name that a token begins with gives way to its
    text, and everything else stays. -/
inductive Becomes (m : Match) : Piece → List Char → Prop
  | char (c : Char) : Becomes m (.char c) [c]
  | bound {token rest : List Char} {name : String} {binding : Binding}
      (h : BeginsWith token m.bindings name binding rest) :
      Becomes m (.token token) (binding.content.toList ++ rest)
  | unbound {token : List Char} (hunmet : Unmet m token) : Becomes m (.token token) token

namespace BeginsWith

variable {token rest rest' : List Char} {d : Dict Binding} {name name' : String}
  {binding binding' : Binding} {entry : String × Binding}

theorem prefix_token (h : BeginsWith token d name binding rest) : name.toList <+: token :=
  ⟨rest, h.text.symm⟩

/-- Neither of two longest names is longer than the other one. -/
theorem unique (hd : d.Sorted) (h : BeginsWith token d name binding rest)
    (h' : BeginsWith token d name' binding' rest') : binding = binding' ∧ rest = rest' := by
  have hle : name'.length ≤ name.length := h.longest _ h'.mem h'.prefix_token
  have hle' : name.length ≤ name'.length := h'.longest _ h.mem h.prefix_token
  have hsame : name.toList = name'.toList ∧ rest = rest' := by
    refine List.append_inj (h.text.symm.trans h'.text) ?_
    rw [String.length_toList, String.length_toList]
    exact Nat.le_antisymm hle' hle
  obtain rfl := String.toList_inj.1 hsame.1
  have hfound := hd.mem_iff.1 h.mem
  have hfound' := hd.mem_iff.1 h'.mem
  exact ⟨Option.some.inj (hfound.symm.trans hfound'), hsame.2⟩

/-- A name that is no longer, or does not begin the token, can be put before the others. -/
theorem cons (h : BeginsWith token d name binding rest)
    (hentry : entry.1.toList <+: token → entry.1.length ≤ name.length) :
    BeginsWith token (entry :: d) name binding rest :=
  ⟨List.mem_cons_of_mem entry h.mem, h.text, List.forall_mem_cons.2 ⟨hentry, h.longest⟩⟩

/-- The first entry of a table stands if no other name that begins the token is longer. -/
theorem head (htext : token = entry.1.toList ++ rest)
    (h : ∀ other ∈ d, other.1.toList <+: token → other.1.length ≤ entry.1.length) :
    BeginsWith token (entry :: d) entry.1 entry.2 rest :=
  ⟨List.mem_cons_self, htext, List.forall_mem_cons.2 ⟨fun _ => Nat.le_refl _, h⟩⟩

/-- The less is left of the token, the longer is the name. -/
theorem length_add_length (h : BeginsWith token d name binding rest) :
    name.length + rest.length = token.length := by
  rw [h.text, List.length_append, String.length_toList]

end BeginsWith

/-- Where each name is bound once, there is no choice in what a piece becomes. -/
theorem Becomes.unique {m : Match} {piece : Piece} {part part' : List Char}
    (hm : m.bindings.Sorted) (h : Becomes m piece part) (h' : Becomes m piece part') :
    part = part' := by
  cases h with
  | char c =>
    cases h'
    rfl
  | bound h =>
    cases h' with
    | bound h' =>
      obtain ⟨rfl, rfl⟩ := h.unique hm h'
      rfl
    | unbound hunmet => exact absurd h.prefix_token (hunmet _ h.mem)
  | unbound hunmet =>
    cases h' with
    | bound h' => exact absurd h'.prefix_token (hunmet _ h'.mem)
    | unbound _ => rfl

/-- No bound name is found just if none begins the token. -/
theorem longestBound?_eq_none_iff {token : List Char} {d : Dict Binding} :
    longestBound? token d = none ↔ ∀ entry ∈ d, ¬ entry.1.toList <+: token := by
  induction d with
  | nil => simp [longestBound?]
  | cons entry others ih =>
    obtain ⟨name, binding⟩ := entry
    rw [List.forall_mem_cons, ← ih, ← Text.dropStart?_eq_none_iff, longestBound?]
    cases Text.dropStart? name.toList token with
    | none => simp
    | some rest =>
      cases longestBound? token others with
      | none => simp
      | some best =>
        obtain ⟨content, shorter⟩ := best
        simp only [reduceCtorEq, false_and, iff_false]
        split <;> exact Option.some_ne_none _

/-- What is found belongs to the longest name that the token begins with. -/
theorem longestBound?_eq_some {token : List Char} {d : Dict Binding} {content : String}
    {rest : List Char} (h : longestBound? token d = some (content, rest)) :
    ∃ name binding, BeginsWith token d name binding rest ∧ binding.content = content := by
  induction d generalizing content rest with
  | nil => cases h
  | cons entry others ih =>
    obtain ⟨name, binding⟩ := entry
    -- the name of the first entry against the longest one among the others
    rw [longestBound?] at h
    cases hfirst : Text.dropStart? name.toList token with
    | none =>
      rw [hfirst] at h
      obtain ⟨best, bound, hbest, hcontent⟩ := ih h
      refine ⟨best, bound, hbest.cons fun hbegins => ?_, hcontent⟩
      exact absurd hbegins (Text.dropStart?_eq_none_iff.1 hfirst)
    | some left =>
      have htext : token = name.toList ++ left := Text.dropStart?_eq_some_iff.1 hfirst
      cases hothers : longestBound? token others with
      | none =>
        rw [hfirst, hothers] at h
        obtain ⟨rfl, rfl⟩ := Prod.mk.inj (Option.some.inj h)
        refine ⟨name, binding, .head htext fun other hother hbegins => ?_, rfl⟩
        exact absurd hbegins (longestBound?_eq_none_iff.1 hothers other hother)
      | some found =>
        obtain ⟨content', shorter⟩ := found
        obtain ⟨best, bound, hbest, hcontent⟩ := ih hothers
        have hlength : name.length + left.length = token.length := by
          rw [htext, List.length_append, String.length_toList]
        have hbestLength := hbest.length_add_length
        rw [hfirst, hothers] at h
        by_cases hlt : left.length < shorter.length
        · simp only [if_pos hlt, Option.some.injEq, Prod.mk.injEq] at h
          obtain ⟨rfl, rfl⟩ := h
          refine ⟨name, binding, .head htext fun other hother hbegins => ?_, rfl⟩
          have hle := hbest.longest other hother hbegins
          show other.1.length ≤ name.length
          omega
        · simp only [if_neg hlt, Option.some.injEq, Prod.mk.injEq] at h
          obtain ⟨rfl, rfl⟩ := h
          refine ⟨best, bound, hbest.cons fun _ => ?_, hcontent⟩
          show name.length ≤ best.length
          omega

/-- A token is a fault just if it has the shape of a metavariable and no bound name begins it. -/
theorem fillToken_eq_error_iff {m : Match} {token : List Char} {fault : Fault} :
    fillToken m token = .error fault ↔
      Misses m token ∧ fault = .fixNotBound (String.ofList token) := by
  unfold fillToken
  cases hbest : longestBound? token m.bindings with
  | some best =>
    have hmet : ¬ Unmet m token := by
      rw [Unmet, ← longestBound?_eq_none_iff, hbest]
      exact Option.some_ne_none best
    simp [Misses, hmet]
  | none =>
    have hunmet : Unmet m token := longestBound?_eq_none_iff.1 hbest
    by_cases hshape : isMetavariable token = true
    · have hmisses : Misses m token := ⟨isMetavariable_iff.1 hshape, hunmet⟩
      simp [hshape, hmisses, eq_comm]
    · have hfine : ¬ Misses m token := fun h => hshape (isMetavariable_iff.2 h.1)
      simp [hshape, hfine]

/-- What a piece is made into is what it becomes. -/
theorem becomes_of_fillPiece {m : Match} {piece : Piece} {part : List Char}
    (h : fillPiece m piece = .ok part) : Becomes m piece part := by
  cases piece with
  | char c =>
    obtain rfl := Except.ok.inj h
    exact .char c
  | token token =>
    rw [fillPiece, fillToken] at h
    cases hbest : longestBound? token m.bindings with
    | some best =>
      obtain ⟨content, rest⟩ := best
      obtain ⟨name, binding, hbegins, rfl⟩ := longestBound?_eq_some hbest
      rw [hbest] at h
      obtain rfl := Except.ok.inj h
      exact .bound hbegins
    | none =>
      rw [hbest] at h
      have hunmet : Unmet m token := longestBound?_eq_none_iff.1 hbest
      by_cases hshape : isMetavariable token = true
      · simp [hshape] at h
      · simp only [if_neg hshape] at h
        obtain rfl := Except.ok.inj h
        exact .unbound hunmet

/-- Only tokens are faults. -/
theorem fillPiece_eq_error_iff {m : Match} {piece : Piece} {fault : Fault} :
    fillPiece m piece = .error fault ↔ ∃ token, piece = .token token ∧ Misses m token ∧
      fault = .fixNotBound (String.ofList token) := by
  cases piece with
  | char c => simp [fillPiece]
  | token token => simp [fillPiece, fillToken_eq_error_iff]

/-! ## Fixes -/

/-- A template is filled piece by piece. -/
theorem fillFix_eq (template : String) (m : Match) :
    fillFix template m = ((pieces template.toList).mapM (fillPiece m)).map fun parts =>
      String.ofList parts.flatten := by
  unfold fillFix
  cases (pieces template.toList).mapM (fillPiece m) <;> rfl

/-- The parts of a fix are what the pieces of its template become. -/
theorem becomes_of_fillFix {template fix : String} {m : Match}
    (h : fillFix template m = .ok fix) :
    ∃ parts, List.Forall₂ (Becomes m) (pieces template.toList) parts ∧
      fix.toList = parts.flatten := by
  rw [fillFix_eq, Outcome.map_eq_ok_iff] at h
  obtain ⟨parts, hparts, rfl⟩ := h
  refine ⟨parts, ?_, String.toList_ofList⟩
  exact (Outcome.mapM_eq_ok_iff.1 hparts).imp fun _ _ hpart => becomes_of_fillPiece hpart

/-- The fault of a fix is that of the first token that misses its binding. -/
theorem fillFix_eq_error_iff {template : String} {m : Match} {fault : Fault} :
    fillFix template m = .error fault ↔ ∃ before token after,
      pieces template.toList = before ++ .token token :: after ∧ Misses m token ∧
      (∀ earlier, .token earlier ∈ before → ¬ Misses m earlier) ∧
      fault = .fixNotBound (String.ofList token) := by
  rw [fillFix_eq, ← Outcome.fault?_eq_some_iff, Outcome.fault?_map, Outcome.fault?_mapM,
    Outcome.findSome?_fault?_eq_some_iff]
  -- a piece becomes something unless it is a token that misses its binding
  have hok : ∀ piece, (∃ part, fillPiece m piece = .ok part) ↔
      ∀ token, piece = .token token → ¬ Misses m token := by
    intro piece
    rw [← Outcome.fault?_eq_none_iff, ← not_iff_not, ← ne_eq, Outcome.fault?_ne_none_iff]
    simp only [fillPiece_eq_error_iff]
    constructor
    · rintro ⟨fault, token, hpiece, hmisses, -⟩ hnone
      exact hnone token hpiece hmisses
    · intro hsome
      push Not at hsome
      obtain ⟨token, hpiece, hmisses⟩ := hsome
      exact ⟨_, token, hpiece, hmisses, rfl⟩
  constructor
  · rintro ⟨before, piece, after, hpieces, hbefore, hpiece⟩
    obtain ⟨token, rfl, hmisses, hfault⟩ := fillPiece_eq_error_iff.1 hpiece
    refine ⟨before, token, after, hpieces, hmisses, fun earlier hearlier => ?_, hfault⟩
    exact (hok _).1 (hbefore _ hearlier) earlier rfl
  · rintro ⟨before, token, after, hpieces, hmisses, hbefore, hfault⟩
    refine ⟨before, .token token, after, hpieces, fun piece hpiece => ?_,
      fillPiece_eq_error_iff.2 ⟨token, rfl, hmisses, hfault⟩⟩
    exact (hok piece).2 fun earlier hearlier => hbefore earlier (hearlier ▸ hpiece)

/-- A fix is made in one pass over its template, from the left.  There is one reading of the template,
    and it loses nothing of it.  The fix is what the pieces of that reading become, one after the
    other, and it is no matter of choice where each name is bound once.  There is a fault just if a
    token has the shape of a metavariable and no bound name begins it, and it names the first one. -/
theorem fillFix_singlePass (template : String) (m : Match) :
    (∃! ps, Reads template.toList ps) ∧
    ∀ ps, Reads template.toList ps →
      ps.flatMap Piece.text = template.toList ∧
      (∀ fix, fillFix template m = .ok fix →
        ∃ parts, List.Forall₂ (Becomes m) ps parts ∧ fix.toList = parts.flatten) ∧
      (m.bindings.Sorted → ∀ parts parts', List.Forall₂ (Becomes m) ps parts →
        List.Forall₂ (Becomes m) ps parts' → parts = parts') ∧
      ∀ fault, fillFix template m = .error fault ↔ ∃ before token after,
        ps = before ++ .token token :: after ∧ Misses m token ∧
        (∀ earlier, .token earlier ∈ before → ¬ Misses m earlier) ∧
        fault = .fixNotBound (String.ofList token) := by
  refine ⟨⟨pieces template.toList, reads_pieces _, fun ps hps => hps.eq_pieces⟩, ?_⟩
  intro ps hps
  have hloses := hps.flatMap_text
  obtain rfl := hps.eq_pieces
  refine ⟨hloses, fun fix h => becomes_of_fillFix h, ?_, fun fault => fillFix_eq_error_iff⟩
  intro hm parts parts' hparts hparts'
  have hunique : Relator.RightUnique (Becomes m) := fun _ _ _ h h' => h.unique hm h'
  exact hunique.forall₂ hparts hparts'

/-- Two names of which one begins the other, each bound to a text with tokens in it. -/
def nestedNames : Match := ((Match.bare "p" 0 5).bind "$X" "$XY").bind "$XY" "$Q$X"

/-- The longer name is put in where it stands, with what follows it, and no text that was put in is
    read again.  A token without a binding is named, even if a later one has none either. -/
theorem fillFix_singlePass_nested :
    fillFix "é$XYZ $X.$1$" nestedNames = .ok "é$Q$XZ $XY.$1$" ∧
    (∃ ps parts, Reads "é$XYZ $X.$1$".toList ps ∧ List.Forall₂ (Becomes nestedNames) ps parts ∧
      "é$Q$XZ $XY.$1$".toList = parts.flatten) ∧
    fillFix "$X $Y $Z" nestedNames = .error (.fixNotBound "$Y") := by
  have hpieces : pieces "é$XYZ $X.$1$".toList = [.char 'é', .token "$XYZ".toList, .char ' ',
      .token "$X".toList, .char '.', .token "$1".toList, .char '$'] := by decide +kernel
  have hfix : fillFix "é$XYZ $X.$1$" nestedNames = .ok "é$Q$XZ $XY.$1$" := by
    rw [fillFix_eq, hpieces]
    rfl
  obtain ⟨⟨ps, hps, -⟩, hpass⟩ := fillFix_singlePass "é$XYZ $X.$1$" nestedNames
  obtain ⟨parts, hparts, hflat⟩ := (hpass ps hps).2.1 _ hfix
  have hspaced : pieces "$X $Y $Z".toList = [.token "$X".toList, .char ' ', .token "$Y".toList,
      .char ' ', .token "$Z".toList] := by decide +kernel
  refine ⟨hfix, ⟨ps, parts, hps, hparts, hflat⟩, ?_⟩
  rw [fillFix_eq, hspaced]
  rfl

/-! ## Metavariables that are not bound -/

/-- The template has the token, where it is read from the left. -/
def HasToken (template : String) (token : List Char) : Prop :=
  ∃ ps, Reads template.toList ps ∧ .token token ∈ ps

/-- Each metavariable in the template that the match does not bind is a fault. -/
def RefusesUnbound (template : String) (m : Match) : Prop :=
  ∀ token, HasToken template token → IsMetavariable token → m.binds (String.ofList token) = false →
    ∃ fault, fillFix template m = .error fault ∧ fault.kind = .fixBindingMiss

/-- A template has the tokens among its pieces, since it is read in one way only. -/
theorem hasToken_iff {template : String} {token : List Char} :
    HasToken template token ↔ .token token ∈ pieces template.toList := by
  simp only [HasToken, reads_iff, exists_eq_left]

/-- A template that is one token has that and no other one. -/
theorem hasToken_ofList_iff {token other : List Char} (h : IsToken token) :
    HasToken (String.ofList token) other ↔ other = token := by
  rw [hasToken_iff, String.toList_ofList, pieces_of_isToken h, List.mem_singleton,
    Piece.token.injEq]

/-- There is no fix just if a token of the template misses its binding. -/
theorem fillFix_fails_iff {template : String} {m : Match} :
    (∃ fault, fillFix template m = .error fault) ↔
      ∃ token, HasToken template token ∧ Misses m token := by
  rw [fillFix_eq, ← Outcome.fault?_ne_none_iff, Outcome.fault?_map, Outcome.fault?_mapM,
    Outcome.findSome?_fault?_ne_none_iff]
  simp only [fillPiece_eq_error_iff, hasToken_iff]
  constructor
  · rintro ⟨piece, hpiece, fault, token, rfl, hmisses, -⟩
    exact ⟨token, hpiece, hmisses⟩
  · rintro ⟨token, htoken, hmisses⟩
    exact ⟨_, htoken, _, token, rfl, hmisses, rfl⟩

/-- The unbound metavariables of a template are faults if one of them misses its binding, or if there
    are none; not if each is begun by another name that is bound. -/
theorem refusesUnbound_iff_misses {template : String} {m : Match} :
    RefusesUnbound template m ↔ (∃ token, HasToken template token ∧ Misses m token) ∨
      ∀ token, HasToken template token → IsMetavariable token →
        m.binds (String.ofList token) = true := by
  constructor
  · intro hrefuses
    by_cases hfails : ∃ fault, fillFix template m = .error fault
    · exact .inl (fillFix_fails_iff.1 hfails)
    · right
      intro token htoken hshape
      by_contra hbinds
      obtain ⟨fault, hfault, -⟩ := hrefuses token htoken hshape (Bool.eq_false_iff.2 hbinds)
      exact hfails ⟨fault, hfault⟩
  · rintro (hmisses | hbound) token htoken hshape hbinds
    · obtain ⟨fault, hfault⟩ := fillFix_fails_iff.2 hmisses
      obtain ⟨_, _, _, -, -, -, rfl⟩ := fillFix_eq_error_iff.1 hfault
      exact ⟨_, hfault, rfl⟩
    · rw [hbound token htoken hshape] at hbinds
      cases hbinds

/-- A metavariable that a bound name begins goes on to one that is not bound, and yet is no fault. -/
theorem exists_unbound_of_met {m : Match} {token : List Char} (hshape : IsMetavariable token)
    (hmet : ¬ Unmet m token) :
    ∃ longer, IsMetavariable longer ∧ ¬ Unmet m longer ∧ m.binds (String.ofList longer) = false := by
  -- no bound name is as long as the token with so many letters behind it
  have hbounded : ∃ n, ∀ entry ∈ m.bindings, entry.1.length < n := by
    refine ⟨(m.bindings.map fun entry => entry.1.length).max?.getD 0 + 1, fun entry hentry => ?_⟩
    exact Nat.lt_succ_of_le (List.le_max?_getD_of_mem (List.mem_map.2 ⟨entry, hentry, rfl⟩))
  obtain ⟨n, hn⟩ := hbounded
  refine ⟨token ++ List.replicate n 'A', hshape.append_replicate n, ?_, ?_⟩
  · intro hunmet
    apply hmet
    intro entry hentry hbegins
    exact hunmet entry hentry (hbegins.trans (List.prefix_append _ _))
  · rw [Bool.eq_false_iff]
    intro hbinds
    obtain ⟨binding, hbinding⟩ := Option.isSome_iff_exists.1 hbinds
    have hlt := hn _ (Dict.mem_of_find? hbinding)
    rw [String.length_ofList, List.length_append, List.length_replicate] at hlt
    omega

/-- Each unbound metavariable of a template is a fault just if every metavariable is bound where there
    is a fix.  This is so if some token misses its binding, or all metavariables are bound, and not
    otherwise; and a match has it so for all templates just if none of its names begins a
    metavariable. -/
theorem refusesUnbound_iff (m : Match) :
    (∀ template, RefusesUnbound template m ↔ ∀ fix, fillFix template m = .ok fix →
      ∀ token, HasToken template token → IsMetavariable token →
        m.binds (String.ofList token) = true) ∧
    (∀ template, RefusesUnbound template m ↔
      (∃ token, HasToken template token ∧ Misses m token) ∨
        ∀ token, HasToken template token → IsMetavariable token →
          m.binds (String.ofList token) = true) ∧
    ((∀ template, RefusesUnbound template m) ↔ ∀ token, IsMetavariable token → Unmet m token) := by
  refine ⟨fun template => ?_, fun template => refusesUnbound_iff_misses, ?_⟩
  · rw [refusesUnbound_iff_misses, ← fillFix_fails_iff]
    cases hfix : fillFix template m with
    | error fault => simp
    | ok fix => simp
  · constructor
    · intro hrefuses token hshape
      by_contra hmet
      obtain ⟨longer, hlonger, hmet', hbinds⟩ := exists_unbound_of_met hshape hmet
      have htokens : ∀ other, HasToken (String.ofList longer) other ↔ other = longer :=
        fun other => hasToken_ofList_iff hlonger.isToken
      rcases refusesUnbound_iff_misses.1 (hrefuses (String.ofList longer)) with
        ⟨other, hother, hmisses⟩ | hbound
      · rw [htokens] at hother
        exact hmet' (hother ▸ hmisses.2)
      · rw [hbound longer ((htokens longer).2 rfl) hlonger] at hbinds
        cases hbinds
    · intro hunmet template
      rw [refusesUnbound_iff_misses]
      by_cases hany : ∃ token, HasToken template token ∧ IsMetavariable token
      · obtain ⟨token, htoken, hshape⟩ := hany
        exact .inl ⟨token, htoken, hshape, hunmet token hshape⟩
      · right
        intro token htoken hshape
        exact absurd ⟨token, htoken, hshape⟩ hany

/-- A match that binds a capture only. -/
def oneCapture : Match := (Match.bare "p" 0 5).bind "$1" "a"

/-- No metavariable begins with a digit, so in every template all metavariables are faults. -/
theorem refusesUnbound_iff_capture :
    fillFix "$1" oneCapture = .ok "a" ∧ ∀ template, RefusesUnbound template oneCapture := by
  have hpieces : pieces "$1".toList = [.token "$1".toList] := by decide +kernel
  have hfix : fillFix "$1" oneCapture = .ok "a" := by
    rw [fillFix_eq, hpieces]
    rfl
  refine ⟨hfix, (refusesUnbound_iff oneCapture).2.2.2 ?_⟩
  rintro token ⟨dots, first, others, rfl, hdots, hfirst, -⟩ entry hentry ⟨rest, hrest⟩
  obtain rfl := List.mem_singleton.1 hentry
  obtain ⟨-, hrest⟩ := List.cons.inj hrest
  rcases hdots with rfl | rfl
  · obtain ⟨rfl, -⟩ := List.cons.inj hrest
    exact absurd (isNameStart_iff.2 hfirst) (by decide)
  · exact absurd (List.cons.inj hrest).1 (by decide)

/-- A match that binds one metavariable. -/
def oneName : Match := (Match.bare "p" 0 5).bind "$X" "a"

/-- A metavariable that is not bound is no fault: the name that begins it is put in for it. -/
theorem fillFix_longerName :
    HasToken "$XY" "$XY".toList ∧ IsMetavariable "$XY".toList ∧ oneName.binds "$XY" = false ∧
      fillFix "$XY" oneName = .ok "aY" ∧ ¬ RefusesUnbound "$XY" oneName := by
  have hshape : IsMetavariable "$XY".toList := isMetavariable_iff.1 rfl
  have htoken : HasToken "$XY" "$XY".toList := (hasToken_ofList_iff hshape.isToken).2 rfl
  have hbinds : oneName.binds "$XY" = false := by decide
  have hfix : fillFix "$XY" oneName = .ok "aY" := by
    rw [fillFix_eq, pieces_of_isToken hshape.isToken]
    rfl
  refine ⟨htoken, hshape, hbinds, hfix, fun hrefuses => ?_⟩
  obtain ⟨fault, hfault, -⟩ := hrefuses _ htoken hshape hbinds
  rw [hfix] at hfault
  cases hfault

end Template

end RuleSieve
