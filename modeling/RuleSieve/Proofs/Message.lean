/-
  What the message of a match becomes.

  The names are put in one after the other, each of them wherever it occurs in a text that changes on
  the way.  Where the names keep apart (`Apart`) this is the same as putting all of them in at once
  (`Replaces`): a dollar sign of the template starts one name only, the rest of that name has none, and
  neither has a text that was put in, so no replacement makes, splits or takes an occurrence of another
  name.  Hence the order of the names does not matter (`fillMessage_simultaneous`).
-/
import Mathlib.Data.List.Infix
import RuleSieve.Proofs.Order
import RuleSieve.Proofs.Table
import RuleSieve.Template

namespace RuleSieve

/-! ## Replacing an occurrence -/

namespace Text

variable {part new : List Char}

/-- Characters that are skipped leave nothing behind. -/
theorem replaceFrom_skip (part new cs text : List Char) :
    replaceFrom part new cs.length (cs ++ text) = replaceFrom part new 0 text := by
  induction cs with
  | nil => rfl
  | cons c cs ih =>
    rw [List.cons_append, List.length_cons, replaceFrom, if_pos (Nat.succ_ne_zero _)]
    exact ih

/-- An occurrence gives way to the new text, and the search goes on behind it. -/
theorem replaceFrom_occurrence (hpart : part ≠ []) (text : List Char) :
    replaceFrom part new 0 (part ++ text) = new ++ replaceFrom part new 0 text := by
  obtain ⟨c, cs, rfl⟩ := List.exists_cons_of_ne_nil hpart
  have hoccurs : (c :: cs).isPrefixOf (c :: (cs ++ text)) = true :=
    List.isPrefixOf_iff_prefix.2 (List.prefix_append (c :: cs) text)
  rw [List.cons_append, replaceFrom, if_neg (fun h => h rfl), if_pos hoccurs]
  exact congrArg _ (replaceFrom_skip _ _ cs text)

/-- Where the part does not occur the character stays. -/
theorem replaceFrom_cons {c : Char} {text : List Char} (h : ¬ part <+: c :: text) :
    replaceFrom part new 0 (c :: text) = c :: replaceFrom part new 0 text := by
  rw [replaceFrom, if_neg (fun h => h rfl), if_neg (fun hp => h (List.isPrefixOf_iff_prefix.1 hp))]

/-- A text without the character that the part begins with stays as it is. -/
theorem replaceFrom_append {d : Char} {rest cs : List Char} (hcs : d ∉ cs) (text : List Char) :
    replaceFrom (d :: rest) new 0 (cs ++ text) = cs ++ replaceFrom (d :: rest) new 0 text := by
  induction cs with
  | nil => rfl
  | cons c cs ih =>
    obtain ⟨hc, hcs⟩ := not_or.1 (mt List.mem_cons.2 hcs)
    have hnone : ¬ d :: rest <+: c :: (cs ++ text) := fun h => hc (List.cons_prefix_cons.1 h).1
    rw [List.cons_append, replaceFrom_cons hnone, ih hcs, List.cons_append]

/-- Replacing a part by itself changes nothing. -/
theorem replaceFrom_self (hpart : part ≠ []) (text : List Char) :
    replaceFrom part part 0 text = text := by
  induction hn : text.length using Nat.strong_induction_on generalizing text with
  | _ n ih =>
    rcases text with - | ⟨c, rest⟩
    · rfl
    by_cases h : part <+: c :: rest
    · obtain ⟨back, hback⟩ := h
      have hlt : back.length < n := by
        rw [← hn, ← hback, List.length_append]
        exact Nat.lt_add_of_pos_left (List.length_pos_iff.2 hpart)
      rw [← hback, replaceFrom_occurrence hpart, ih _ hlt back rfl]
    · have hlt : rest.length < n := hn ▸ Nat.lt_succ_self _
      rw [replaceFrom_cons h, ih _ hlt rest rfl]

/-- A text in which the part does not occur stays as it is. -/
theorem replaceFrom_of_not_occursIn {text : List Char} (h : occursIn part text = false) :
    replaceFrom part new 0 text = text := by
  induction text with
  | nil => rfl
  | cons c text ih =>
    rw [occursIn, Bool.or_eq_false_iff] at h
    have hnone : ¬ part <+: c :: text := by
      rw [← List.isPrefixOf_iff_prefix, h.1]
      exact Bool.false_ne_true
    rw [replaceFrom_cons hnone, ih h.2]

end Text

namespace Template

variable {m : Match} {ms : List Match} {name other : String}

/-! ## Names that keep apart -/

/-- Some match binds the name. -/
def Bound (ms : List Match) (name : String) : Prop := ∃ m ∈ ms, m.binds name = true

/-- The names that matches bind keep apart: each one is a dollar sign with a text behind it that has
    none, no name begins another one, and what names are bound to has no dollar sign. -/
structure Apart (ms : List Match) : Prop where
  dollar : ∀ name, Bound ms name → ∃ rest, name.toList = '$' :: rest ∧ '$' ∉ rest
  noPrefix : ∀ name other, Bound ms name → Bound ms other → name.toList <+: other.toList →
    name = other
  content : ∀ m ∈ ms, ∀ name text, m.value? name = some text → '$' ∉ text.toList

/-- Each dollar sign of the text starts a name that some match binds. -/
def StartsNames (ms : List Match) (text : List Char) : Prop :=
  ∀ rest, '$' :: rest <:+ text → ∃ name, Bound ms name ∧ name.toList <+: '$' :: rest

theorem mem_boundNames : name ∈ boundNames ms ↔ Bound ms name := by
  rw [boundNames, mem_distinctNames, List.mem_flatMap]
  exact exists_congr fun m => and_congr_right fun _ => Dict.has_iff.symm

/-- Two names of which one begins the other are the same. -/
theorem Apart.eq_of_prefixes (h : Apart ms) (hname : Bound ms name) (hother : Bound ms other)
    {text : List Char} (hn : name.toList <+: text) (ho : other.toList <+: text) : name = other := by
  rcases List.prefix_or_prefix_of_prefix hn ho with hle | hle
  · exact h.noPrefix name other hname hother hle
  · exact (h.noPrefix other name hother hname hle).symm

/-! ## What a name stands for -/

/-- What a name stands for in the message of a match: what the match binds it to, or else what the
    first enclosing match that binds it does, or else itself. -/
inductive StandsFor (m : Match) (ms : List Match) (name : String) : List Char → Prop
  | own {text : String} (hvalue : m.value? name = some text) : StandsFor m ms name text.toList
  | enclosing {before after : List Match} {outer : Match} {text : String}
      (hown : m.value? name = none) (hms : ms = before ++ outer :: after)
      (hvalue : outer.value? name = some text) (hspan : outer.span.encloses m.span = true)
      (hfirst : ∀ earlier ∈ before, earlier.binds name = true →
        earlier.span.encloses m.span = false) : StandsFor m ms name text.toList
  | itself (hown : m.value? name = none)
      (hnone : ∀ outer ∈ ms, outer.binds name = true → outer.span.encloses m.span = false) :
      StandsFor m ms name name.toList

/-- What is put in for a name. -/
def standIn (m : Match) (ms : List Match) (name : String) : List Char :=
  (resolve? m ms name).elim name.toList String.toList

/-- The first match that binds the name and encloses the span. -/
theorem resolve?_of_value?_eq_none (hown : m.value? name = none) :
    resolve? m ms name =
      (ms.find? fun other => other.binds name && other.span.encloses m.span).bind (·.value? name) := by
  rw [resolve?, hown]
  rfl

/-- A name stands for what is put in for it, and for nothing else. -/
theorem standsFor_iff {value : List Char} :
    StandsFor m ms name value ↔ value = standIn m ms name := by
  constructor
  · intro h
    rw [standIn]
    cases h with
    | own hvalue =>
      rw [resolve?, hvalue]
      rfl
    | @enclosing before after outer text hown hms hvalue hspan hfirst =>
      have hfind : (ms.find? fun other => other.binds name && other.span.encloses m.span) =
          some outer := by
        refine List.find?_eq_some_iff_append.2 ⟨?_, before, after, hms, fun earlier hearlier => ?_⟩
        · rw [Match.binds_iff.2 ⟨text, hvalue⟩, hspan, Bool.and_self]
        · rw [Bool.not_eq_true', Bool.and_eq_false_imp]
          exact hfirst earlier hearlier
      rw [resolve?_of_value?_eq_none hown, hfind]
      show text.toList = (outer.value? name).elim name.toList String.toList
      rw [hvalue]
      rfl
    | itself hown hnone =>
      have hfind : (ms.find? fun other => other.binds name && other.span.encloses m.span) = none := by
        refine List.find?_eq_none.2 fun outer houter => ?_
        rw [Bool.not_eq_true, Bool.and_eq_false_imp]
        exact hnone outer houter
      rw [resolve?_of_value?_eq_none hown, hfind]
      rfl
  · rintro rfl
    rw [standIn]
    cases hown : m.value? name with
    | some text =>
      rw [resolve?, hown]
      exact .own hown
    | none =>
      rw [resolve?_of_value?_eq_none hown]
      cases houter : ms.find? fun other => other.binds name && other.span.encloses m.span with
      | none =>
        refine .itself hown fun outer hmem => ?_
        rw [← Bool.and_eq_false_imp, ← Bool.not_eq_true]
        exact List.find?_eq_none.1 houter outer hmem
      | some outer =>
        obtain ⟨hfound, before, after, hms, hbefore⟩ := List.find?_eq_some_iff_append.1 houter
        obtain ⟨hbinds, hspan⟩ := Bool.and_eq_true_iff.1 hfound
        obtain ⟨text, hvalue⟩ := Match.binds_iff.1 hbinds
        show StandsFor m ms name ((outer.value? name).elim name.toList String.toList)
        rw [hvalue]
        refine .enclosing hown hms hvalue hspan fun earlier hearlier => ?_
        rw [← Bool.and_eq_false_imp, ← Bool.not_eq_true']
        exact hbefore earlier hearlier

/-- What is put in for a name has no dollar sign, unless it is the name itself. -/
theorem standIn_cases (hm : m ∈ ms) (h : Apart ms) (name : String) :
    '$' ∉ standIn m ms name ∨ standIn m ms name = name.toList := by
  generalize hvalue : standIn m ms name = value
  cases standsFor_iff.2 hvalue.symm with
  | own hown => exact .inl (h.content m hm name _ hown)
  | @enclosing before after outer text _ hms houter _ _ =>
    refine .inl (h.content outer ?_ name text houter)
    rw [hms]
    exact List.mem_append_right before (List.mem_cons_self ..)
  | itself => exact .inr rfl

/-! ## All names at once -/

/-- The text with each name of it replaced by something that the name stands for, and all other
    characters as they are. -/
inductive Replaces (ms : List Match) (stands : String → List Char → Prop) :
    List Char → List Char → Prop
  | nil : Replaces ms stands [] []
  | char {c : Char} {text out : List Char} (hc : c ≠ '$') (h : Replaces ms stands text out) :
      Replaces ms stands (c :: text) (c :: out)
  | name {name : String} {value text out : List Char} (hname : Bound ms name)
      (hvalue : stands name value) (h : Replaces ms stands text out) :
      Replaces ms stands (name.toList ++ text) (value ++ out)

namespace Replaces

variable {stands stands' : String → List Char → Prop} {text out out' : List Char}

theorem imp (h : ∀ name value, Bound ms name → stands name value → stands' name value)
    (hout : Replaces ms stands text out) : Replaces ms stands' text out := by
  induction hout with
  | nil => exact .nil
  | char hc _ ih => exact .char hc ih
  | name hname hvalue _ ih => exact .name hname (h _ _ hname hvalue) ih

/-- What the text becomes is settled by what its first character begins. -/
theorem inv_char {c : Char} (hapart : Apart ms) (hc : c ≠ '$')
    (h : Replaces ms stands (c :: text) out) :
    ∃ rest, out = c :: rest ∧ Replaces ms stands text rest := by
  generalize htext : c :: text = whole at h
  cases h with
  | nil => simp at htext
  | char _ h =>
    obtain ⟨rfl, rfl⟩ := List.cons.inj htext
    exact ⟨_, rfl, h⟩
  | name hname _ _ =>
    obtain ⟨_, hdollar, _⟩ := hapart.dollar _ hname
    rw [hdollar, List.cons_append] at htext
    exact absurd (List.cons.inj htext).1 hc

/-- A name that the text begins with is the one that is replaced. -/
theorem inv_name {name : String} (hapart : Apart ms) (hname : Bound ms name)
    (h : Replaces ms stands (name.toList ++ text) out) :
    ∃ value rest, out = value ++ rest ∧ stands name value ∧ Replaces ms stands text rest := by
  generalize htext : name.toList ++ text = whole at h
  obtain ⟨tail, hdollar, _⟩ := hapart.dollar name hname
  cases h with
  | nil => simp [hdollar] at htext
  | char hc _ =>
    rw [hdollar, List.cons_append] at htext
    exact absurd (List.cons.inj htext).1.symm hc
  | @name other value text' out' hother hvalue h =>
    have hsame : name = other :=
      hapart.eq_of_prefixes hname hother ⟨text, htext⟩ (List.prefix_append ..)
    subst hsame
    rw [List.append_cancel_left htext]
    exact ⟨value, out', rfl, hvalue, h⟩

/-- Where each name stands for one text only, so does the whole. -/
theorem unique (hapart : Apart ms)
    (hstands : ∀ name value value', stands name value → stands name value' → value = value')
    (h : Replaces ms stands text out) (h' : Replaces ms stands text out') : out = out' := by
  induction h generalizing out' with
  | nil =>
    generalize htext : ([] : List Char) = whole at h'
    cases h' with
    | nil => rfl
    | char => simp at htext
    | name hname =>
      obtain ⟨_, hdollar, _⟩ := hapart.dollar _ hname
      simp [hdollar] at htext
  | char hc _ ih =>
    obtain ⟨rest, rfl, hrest⟩ := inv_char hapart hc h'
    rw [ih hrest]
  | name hname hvalue _ ih =>
    obtain ⟨value', rest, rfl, hvalue', hrest⟩ := inv_name hapart hname h'
    rw [ih hrest, hstands _ _ _ hvalue hvalue']

end Replaces

/-- A text in which each dollar sign starts a name is made of names and other characters. -/
theorem replaces_self (hapart : Apart ms) (text : List Char) (hstarts : StartsNames ms text) :
    Replaces ms (fun name value => value = name.toList) text text := by
  induction hn : text.length using Nat.strong_induction_on generalizing text with
  | _ n ih =>
    have hback : ∀ front back, text = front ++ back → StartsNames ms back :=
      fun front back htext rest hrest => hstarts rest (hrest.trans ⟨front, htext.symm⟩)
    rcases text with - | ⟨c, rest⟩
    · exact .nil
    rcases eq_or_ne c '$' with rfl | hc
    · obtain ⟨name, hname, back, htext⟩ := hstarts rest (List.suffix_refl _)
      obtain ⟨tail, hdollar, _⟩ := hapart.dollar name hname
      have hlt : back.length < n := by
        rw [← hn, ← htext, hdollar, List.length_append]
        exact Nat.lt_add_of_pos_left (Nat.succ_pos _)
      rw [← htext]
      exact .name hname rfl (ih _ hlt back (hback _ back htext.symm) rfl)
    · have hlt : rest.length < n := hn ▸ Nat.lt_succ_self _
      exact .char hc (ih _ hlt rest (hback [c] rest rfl) rfl)

/-! ## One name after the other -/

/-- What a name stands for once some of the names were put in: for what is put in if it is one of
    them, and else still for itself. -/
def Halfway (m : Match) (ms : List Match) (done : List String) (name : String)
    (value : List Char) : Prop :=
  value = if name ∈ done then standIn m ms name else name.toList

/-- Putting a name in puts what it stands for in its place, itself if need be. -/
theorem fillName_eq (hname : name.toList ≠ []) (text : List Char) :
    fillName m ms text name = Text.replaceFrom name.toList (standIn m ms name) 0 text := by
  rw [fillName]
  split
  · rw [standIn]
    cases resolve? m ms name with
    | none => exact (Text.replaceFrom_self hname text).symm
    | some value => exact if_neg (by simpa using hname)
  · next h => exact (Text.replaceFrom_of_not_occursIn (Bool.not_eq_true _ ▸ h)).symm

/-- Of a name that stands in the text, only that name itself is replaced. -/
theorem replaceFrom_name (hapart : Apart ms) (hname : Bound ms name) (hother : Bound ms other)
    (new text : List Char) :
    Text.replaceFrom name.toList new 0 (other.toList ++ text) =
      (if other = name then new else other.toList) ++ Text.replaceFrom name.toList new 0 text := by
  obtain ⟨tail, hdollar, htail⟩ := hapart.dollar name hname
  split
  · next hsame =>
    rw [hsame]
    exact Text.replaceFrom_occurrence (by simp [hdollar]) text
  · next hne =>
    have hnone : ¬ name.toList <+: other.toList ++ text := fun h =>
      hne (hapart.eq_of_prefixes hother hname (List.prefix_append ..) h)
    obtain ⟨tail', hdollar', htail'⟩ := hapart.dollar other hother
    rw [hdollar', List.cons_append] at hnone ⊢
    rw [Text.replaceFrom_cons hnone, hdollar, Text.replaceFrom_append htail', List.cons_append]

/-- Putting in one name more leaves no trace of the order. -/
theorem replaces_fillName (hm : m ∈ ms) (hapart : Apart ms) (hname : Bound ms name)
    {done : List String} {text out : List Char} (h : Replaces ms (Halfway m ms done) text out) :
    Replaces ms (Halfway m ms (name :: done)) text (fillName m ms out name) := by
  obtain ⟨tail, hdollar, htail⟩ := hapart.dollar name hname
  rw [fillName_eq (by simp [hdollar])]
  induction h with
  | nil => exact .nil
  | @char c text out hc _ ih =>
    have hnone : ¬ name.toList <+: c :: out := fun h => by
      rw [hdollar] at h
      exact hc (List.cons_prefix_cons.1 h).1.symm
    rw [Text.replaceFrom_cons hnone]
    exact .char hc ih
  | @name other value text out hother hvalue _ ih =>
    by_cases hfree : '$' ∈ value
    · -- the name still stands there: it is put in now, or it stays
      have hself : value = other.toList := by
        rw [hvalue] at hfree ⊢
        split at hfree
        · next hdone =>
          rw [if_pos hdone]
          exact (standIn_cases hm hapart other).resolve_left (not_not_intro hfree)
        · next hdone => exact if_neg hdone
      have hnext : Halfway m ms (name :: done) other
          (if other = name then standIn m ms name else other.toList) := by
        rw [Halfway, hself] at hvalue
        by_cases hsame : other = name
        · rw [Halfway, if_pos hsame, if_pos (hsame ▸ List.mem_cons_self ..), hsame]
        · rw [Halfway, if_neg hsame]
          simpa only [List.mem_cons, hsame, false_or] using hvalue
      rw [hself, replaceFrom_name hapart hname hother]
      exact .name hother hnext ih
    · -- a text was put in for the name, and no name is found in it any more
      have hdone : other ∈ done := by
        by_contra hdone
        rw [Halfway, if_neg hdone] at hvalue
        obtain ⟨_, hstart, _⟩ := hapart.dollar other hother
        simp [hvalue, hstart] at hfree
      rw [hdollar, Text.replaceFrom_append hfree, ← hdollar]
      refine .name hother ?_ ih
      rw [Halfway, if_pos (List.mem_cons_of_mem _ hdone), hvalue, if_pos hdone]

/-- Putting in several names, in any order. -/
theorem replaces_foldl (hm : m ∈ ms) (hapart : Apart ms) {names done : List String}
    (hnames : ∀ name ∈ names, Bound ms name) {text out : List Char}
    (h : Replaces ms (Halfway m ms done) text out) :
    Replaces ms (Halfway m ms (names.reverse ++ done)) text (names.foldl (fillName m ms) out) := by
  induction names generalizing done out with
  | nil => exact h
  | cons name names ih =>
    obtain ⟨hname, hnames⟩ := List.forall_mem_cons.1 hnames
    have hrest := ih hnames (replaces_fillName hm hapart hname h)
    rwa [List.reverse_cons, List.append_assoc]

/-- All names put in, in any order. -/
theorem replaces_standsFor (hm : m ∈ ms) (hapart : Apart ms) {names : List String}
    (hnames : ∀ name, name ∈ names ↔ Bound ms name) {text : List Char}
    (hstarts : StartsNames ms text) :
    Replaces ms (StandsFor m ms) text (names.foldl (fillName m ms) text) := by
  have hstart : Replaces ms (Halfway m ms []) text text :=
    (replaces_self hapart text hstarts).imp fun _ _ _ h => h
  refine (replaces_foldl hm hapart (fun name h => (hnames name).1 h) hstart).imp ?_
  intro name value hname hvalue
  rw [Halfway, List.append_nil, if_pos (List.mem_reverse.2 ((hnames name).2 hname))] at hvalue
  exact standsFor_iff.2 hvalue

/-- Where names keep apart and each dollar sign of the template starts a name, the message is the
    template with all names replaced at once, and no order of the names gives another one. -/
theorem fillMessage_simultaneous (m : Match) (ms : List Match) (hm : m ∈ ms) (hapart : Apart ms)
    (template : String) (hstarts : StartsNames ms template.toList) :
    (∀ message : String, Replaces ms (StandsFor m ms) template.toList message.toList ↔
      fillMessage template m ms = message) ∧
    ∀ names : List String, names.Perm (boundNames ms) →
      String.ofList (names.foldl (fillName m ms) template.toList) = fillMessage template m ms := by
  have hfunction : ∀ name value value', StandsFor m ms name value → StandsFor m ms name value' →
      value = value' := fun name value value' h h' =>
    (standsFor_iff.1 h).trans (standsFor_iff.1 h').symm
  have hall : ∀ names : List String, names.Perm (boundNames ms) →
      Replaces ms (StandsFor m ms) template.toList (names.foldl (fillName m ms) template.toList) :=
    fun names hnames =>
      replaces_standsFor hm hapart (fun name => hnames.mem_iff.trans mem_boundNames) hstarts
  have hmessage := hall (boundNames ms) (.refl _)
  refine ⟨fun message => ⟨fun h => ?_, ?_⟩, fun names hnames => ?_⟩
  · rw [fillMessage, hmessage.unique hapart hfunction h, String.ofList_toList]
  · rintro rfl
    rwa [fillMessage, String.toList_ofList]
  · rw [fillMessage, (hall names hnames).unique hapart hfunction hmessage]

/-- A match, two that enclose it and bind another name, and one far away that binds a third name. -/
def nestedMatches : List Match :=
  [(Match.bare "q" 20 30).bind "$Z" "e", (Match.bare "p" 4 6).bind "$X" "a",
    ((Match.bare "p" 0 10).bind "$X" "b").bind "$Y" "c", (Match.bare "q" 3 8).bind "$Y" "d"]

/-- What the match binds comes first, then what the first match around it does; a name that only a
    match elsewhere binds stays, next to a text that was put in too. -/
theorem fillMessage_simultaneous_nested :
    ∃ m ∈ nestedMatches, fillMessage "$X$Y: $Z$X" m nestedMatches = "ac: $Za" ∧
      Replaces nestedMatches (StandsFor m nestedMatches) "$X$Y: $Z$X".toList "ac: $Za".toList ∧
      ["$Y", "$X", "$Z"].foldl (fillName m nestedMatches) "$X$Y: $Z$X".toList = "ac: $Za".toList := by
  have hnames : boundNames nestedMatches = ["$Z", "$X", "$Y"] := by decide +kernel
  have hbound : ∀ name, Bound nestedMatches name ↔ name ∈ ["$Z", "$X", "$Y"] := fun name => by
    rw [← mem_boundNames, hnames]
  have happart : Apart nestedMatches := by
    have hdollar : ∀ name ∈ ["$Z", "$X", "$Y"],
        name.toList.head? = some '$' ∧ '$' ∉ name.toList.tail := by decide
    have hprefix : ∀ name ∈ ["$Z", "$X", "$Y"], ∀ other ∈ ["$Z", "$X", "$Y"],
        name.toList <+: other.toList → name = other := by decide
    have hcontent : ∀ m ∈ nestedMatches, ∀ p ∈ m.bindings, '$' ∉ p.2.content.toList := by decide
    refine ⟨fun name h => ?_, fun name other h h' => ?_, fun m hm name text htext => ?_⟩
    · obtain ⟨hhead, htail⟩ := hdollar name ((hbound name).1 h)
      exact ⟨_, List.eq_cons_of_mem_head? hhead, htail⟩
    · exact hprefix name ((hbound name).1 h) other ((hbound other).1 h')
    · obtain ⟨b, hb, rfl⟩ := Option.map_eq_some_iff.1 htext
      exact hcontent m hm _ (Dict.mem_of_find? hb)
  have hstarts : StartsNames nestedMatches "$X$Y: $Z$X".toList := by
    have htails : ∀ t ∈ "$X$Y: $Z$X".toList.tails, t.head? = some '$' →
        ∃ name ∈ ["$Z", "$X", "$Y"], name.toList <+: t := by decide
    intro rest hrest
    obtain ⟨name, hname, hprefix⟩ := htails _ ((List.mem_tails _ _).2 hrest) rfl
    exact ⟨name, (hbound name).2 hname, hprefix⟩
  have hmem : (Match.bare "p" 4 6).bind "$X" "a" ∈ nestedMatches := by
    simp [nestedMatches]
  obtain ⟨hmessage, horder⟩ := fillMessage_simultaneous _ _ hmem happart _ hstarts
  have hfill : fillMessage "$X$Y: $Z$X" ((Match.bare "p" 4 6).bind "$X" "a") nestedMatches =
      "ac: $Za" := by decide +kernel
  refine ⟨_, hmem, hfill, (hmessage _).2 hfill, ?_⟩
  have := horder ["$Y", "$X", "$Z"] (by rw [hnames]; decide)
  rw [hfill] at this
  exact String.ofList_injective this

end Template

end RuleSieve
