/-
  Tokens and their source.

  The lexemes of a source and the blanks between them make up the whole of it, in order and without
  overlap, and every index that is ever told of a source, of a token or of a problem, is one at which
  the source may be cut.
-/
import RuleSieve.Proofs.InPlace
import RuleSieve.Proofs.ProblemPlace

namespace RuleSieve.Predicate

/-- The source consists of the texts of the lexemes and of blanks between them.  The lexemes begin
    one after the other, and each is the slice of the source that it says it is. -/
structure Covers (source : String) (ls : List Lexeme) : Prop where
  laid : Laid (fun l _ => l.text ≠ []) 0 ls source.toList
  increasing : ls.Pairwise fun l m => l.offset < m.offset
  sliced : ∀ l ∈ ls, l.offset < source.utf8ByteSize ∧ IsPlace source l.offset ∧
    slice? source l.offset (l.offset + byteLength l.text) = some l.text

/-- The error is one of syntax, and said at a place of the source. -/
def SaidAtPlace (source : String) (e : Error) : Prop :=
  ∃ index problem, e = .illFormed index problem ∧ IsPlace source index

variable {source : String} {offset : Nat} {cs : List Char} {ls : List Lexeme}

theorem length_le_byteLength (cs : List Char) : cs.length ≤ byteLength cs := by
  induction cs with
  | nil => exact Nat.le_refl 0
  | cons c cs ih =>
    have hpos := c.utf8Size_pos
    rw [List.length_cons, byteLength]
    omega

theorem byteLength_pos (h : cs ≠ []) : 0 < byteLength cs :=
  Nat.lt_of_lt_of_le (List.length_pos_iff.2 h) (length_le_byteLength cs)

/-- Each lexeme is left at its offset. -/
theorem Laid.leaves {P : Lexeme → List Char → Prop} (h : Laid P offset ls cs)
    (hleaves : Leaves source offset cs) :
    ∀ l ∈ ls, ∃ rest, P l rest ∧ Leaves source l.offset (l.text ++ rest) := by
  induction h with
  | done => simp
  | @blank offset ls c cs hc _ ih =>
    exact ih (show Leaves source offset ([c] ++ cs) from hleaves).append
  | lexeme hl _ ih => exact List.forall_mem_cons.2 ⟨⟨_, hl, hleaves⟩, ih hleaves.append⟩

/-- Lexemes that are not empty begin one after the other. -/
theorem Laid.increasing (h : Laid (fun l _ => l.text ≠ []) offset ls cs) :
    (∀ l ∈ ls, offset ≤ l.offset) ∧ ls.Pairwise fun l m => l.offset < m.offset := by
  induction h with
  | done => exact ⟨by simp, .nil⟩
  | blank _ _ ih => exact ⟨fun l hl => Nat.le_trans (Nat.le_add_right _ _) (ih.1 l hl), ih.2⟩
  | @lexeme offset ls text _ token hl _ ih =>
    obtain ⟨hfrom, hincreasing⟩ := ih
    have hpos : 0 < byteLength text := byteLength_pos hl
    have hafter (m : Lexeme) (hm : m ∈ ls) : offset < m.offset :=
      Nat.lt_of_lt_of_le (Nat.lt_add_of_pos_right hpos) (hfrom m hm)
    exact ⟨List.forall_mem_cons.2 ⟨Nat.le_refl _, fun m hm => Nat.le_of_lt (hafter m hm)⟩,
      hincreasing.cons hafter⟩

theorem covers_of_laid (h : Laid (fun l _ => l.text ≠ []) 0 ls source.toList) : Covers source ls := by
  refine ⟨h, h.increasing.2, fun l hl => ?_⟩
  obtain ⟨rest, hne, hleaves⟩ := h.leaves (Leaves.start source) l hl
  have hpos := byteLength_pos hne
  have hsize := hleaves.utf8ByteSize_eq
  rw [byteLength_append] at hsize
  exact ⟨by omega, hleaves.isPlace, hleaves.slice?_eq hleaves.append⟩

theorem covers_of_lexemes (h : lexemes source.toList = .ok ls) : Covers source ls := by
  refine covers_of_laid ((lexemesFrom_eq_ok_iff.1 h).mono fun l rest hread => ?_)
  obtain ⟨c, cs, htext, -⟩ := hread
  rw [htext]
  exact List.cons_ne_nil c cs

theorem saidAtPlace_of_lexemes {e : Error} (h : lexemes source.toList = .error e) :
    SaidAtPlace source e := by
  obtain ⟨before, after, problem, hsource, rfl⟩ := exists_of_lexemesFrom_eq_error h
  have hleaves : Leaves source (0 + byteLength before) after := ⟨before, hsource, Nat.zero_add _⟩
  exact ⟨_, problem, rfl, hleaves.isPlace⟩

/-- The problems that are said of tokens are said where they stand, or at the end of the source. -/
theorem Covers.saidAtPlace {e : Error} (h : Covers source ls)
    (he : parseTokens source.utf8ByteSize ls = .error e) : SaidAtPlace source e := by
  obtain ⟨us, problem, hus, rfl⟩ := exists_of_parseTokens_eq_error he
  refine ⟨_, problem, rfl, ?_⟩
  cases us with
  | nil =>
    have hend : Leaves source source.utf8ByteSize [] :=
      ⟨source.toList, (List.append_nil _).symm, utf8ByteSize_eq source⟩
    exact hend.isPlace
  | cons l us => exact (h.sliced l (hus.subset List.mem_cons_self)).2.1

/-- **The tokens cover their source.**  Read in place, by bytes and slices, a source always has an
    outcome, the same as read by characters: every slice is cut out between characters, and the loop
    ends.  The tokens then cover the source, and what is wrong with the source or with its tokens is
    said at a place of it. -/
theorem lexemes_cover (source : String) :
    InPlace.run source source.utf8ByteSize 0 =
        some ((lexemes source.toList).map (List.map InPlace.spanned)) ∧
      (∀ ls, lexemes source.toList = .ok ls → Covers source ls ∧
        ∀ e, parseTokens source.utf8ByteSize ls = .error e → SaidAtPlace source e) ∧
      ∀ e, lexemes source.toList = .error e → SaidAtPlace source e := by
  refine ⟨?_, fun ls hls => ?_, fun e he => saidAtPlace_of_lexemes he⟩
  · refine InPlace.run_eq (Leaves.start source) ?_
    rw [utf8ByteSize_eq]
    exact length_le_byteLength source.toList
  · have hcovers := covers_of_lexemes hls
    exact ⟨hcovers, fun e he => hcovers.saidAtPlace he⟩

/-- An accented letter takes two bytes, within a string and as a character that begins no token. -/
theorem lexemes_cover_accented :
    (lexemes "'é' <".toList = .ok [⟨0, "'é'".toList, .str "é"⟩, ⟨5, ['<'], .less⟩] ∧
        Covers "'é' <" [⟨0, "'é'".toList, .str "é"⟩, ⟨5, ['<'], .less⟩]) ∧
      lexemes "'é' é<".toList = .error (.illFormed 5 (.unexpectedCharacter 'é')) ∧
        SaidAtPlace "'é' é<" (.illFormed 5 (.unexpectedCharacter 'é')) := by
  have hls : lexemes "'é' <".toList = .ok [⟨0, "'é'".toList, .str "é"⟩, ⟨5, ['<'], .less⟩] := rfl
  have he : lexemes "'é' é<".toList = .error (.illFormed 5 (.unexpectedCharacter 'é')) := rfl
  exact ⟨⟨hls, ((lexemes_cover "'é' <").2.1 _ hls).1⟩, he, (lexemes_cover "'é' é<").2.2 _ he⟩

end RuleSieve.Predicate
