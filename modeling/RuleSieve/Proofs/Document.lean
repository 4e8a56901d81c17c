/-
  Reading back what was stored.

  A record leaves out the fields that are missing.  As its names differ, each field is found at one
  place, and what is read there is what the field was made from, so the parts of a record can be read
  one by one (`required_stored`, `optional_stored`).
-/
import Mathlib.Data.List.Nodup
import RuleSieve.Document
import RuleSieve.Proofs.Outcome

namespace RuleSieve

/-! ## Trees -/

namespace Tree

variable {α β ε : Type}

theorem mapItems_eq (f : α → β) (items : List (Tree α)) : mapItems f items = items.map (map f) :=
  map_of_cons rfl (fun _ _ => rfl) items

theorem mapFields_eq (f : α → β) (fields : List (String × Tree α)) :
    mapFields f fields = fields.map fun field => (field.1, field.2.map f) :=
  map_of_cons rfl (fun _ _ => rfl) fields

/-- There is no tree without levels. -/
theorem exists_eq_succ_of_depth_le {t : Tree α} {levels : Nat} (h : t.depth ≤ levels) :
    ∃ fewer, levels = fewer + 1 := by
  have hpos : 0 < t.depth := by cases t <;> simp [depth]
  exact ⟨levels - 1, by omega⟩

/-- No item is deeper than the list of them. -/
theorem depth_le_depthOfItems {item : Tree α} {items : List (Tree α)} (h : item ∈ items) :
    item.depth ≤ depthOfItems items := by
  induction items with
  | nil => cases h
  | cons first items ih =>
    rw [depthOfItems]
    rcases List.mem_cons.1 h with rfl | h
    · exact Nat.le_max_left ..
    · exact Nat.le_trans (ih h) (Nat.le_max_right ..)

/-- No field is deeper than the table of them. -/
theorem depth_le_depthOfFields {name : String} {value : Tree α} {fields : List (String × Tree α)}
    (h : (name, value) ∈ fields) : value.depth ≤ depthOfFields fields := by
  induction fields with
  | nil => cases h
  | cons first fields ih =>
    rw [depthOfFields]
    rcases List.mem_cons.1 h with rfl | h
    · exact Nat.le_max_left ..
    · exact Nat.le_trans (ih h) (Nat.le_max_right ..)

mutual

/-- Leaves that can be read back make trees that can be read back. -/
theorem traverse_map {f : β → Except ε α} {g : α → β} (h : ∀ a, f (g a) = .ok a) :
    ∀ t : Tree α, (t.map g).traverse f = .ok t
  | .leaf a => by rw [map, traverse, h]; rfl
  | .list items => by rw [map, traverse, traverseItems_mapItems h items]; rfl
  | .table fields => by rw [map, traverse, traverseFields_mapFields h fields]; rfl

/-- Leaves that were rewritten are read back, item by item. -/
theorem traverseItems_mapItems {f : β → Except ε α} {g : α → β} (h : ∀ a, f (g a) = .ok a) :
    ∀ items : List (Tree α), traverseItems f (mapItems g items) = .ok items
  | [] => by rw [mapItems, traverseItems]
  | item :: items => by
    rw [mapItems, traverseItems, traverse_map h item, traverseItems_mapItems h items]; rfl

/-- Leaves that were rewritten are read back, field by field. -/
theorem traverseFields_mapFields {f : β → Except ε α} {g : α → β} (h : ∀ a, f (g a) = .ok a) :
    ∀ fields : List (String × Tree α), traverseFields f (mapFields g fields) = .ok fields
  | [] => by rw [mapFields, traverseFields]
  | (_, value) :: fields => by
    rw [mapFields, traverseFields, traverse_map h value, traverseFields_mapFields h fields]; rfl

end

end Tree

namespace Document

variable {α β : Type}

/-- The meaning of what is said exactly is settled. -/
theorem resolve_ofJson (json : Json) : resolve (ofJson json) = .ok json :=
  Tree.traverse_map (f := resolveLeaf) (g := .exact) (fun _ => rfl) json

/-- A stored list is read by reading its items. -/
theorem list_ofJson (decode : Decoder α) (items : List Json) :
    list decode (ofJson (.list items)) = items.mapM fun item => decode (ofJson item) := by
  rw [ofJson, Tree.map, Tree.mapItems_eq]
  exact List.mapM_map

/-! ## Parts of a record -/

namespace Part

theorem result_map (f : α → β) (x : Part α) : (f <$> x).result = x.result.map f := by
  show (combine ⟨.ok f⟩ x).result = _
  unfold combine
  cases x.result <;> rfl

/-- Two parts of which the first is read give what the second gives. -/
theorem result_seq {f : Part (α → β)} {g : α → β} (hf : f.result = .ok g) (x : Part α) :
    (f <*> x).result = x.result.map g := by
  show (combine f x).result = _
  unfold combine
  rw [hf]
  cases x.result <;> rfl

theorem result_map_ok {x : Part α} {a : α} (f : α → β) (hx : x.result = .ok a) :
    (f <$> x).result = .ok (f a) := by
  rw [result_map, hx]
  rfl

theorem result_seq_ok {f : Part (α → β)} {g : α → β} {x : Part α} {a : α} (hf : f.result = .ok g)
    (hx : x.result = .ok a) : (f <*> x).result = .ok (g a) := by
  rw [result_seq hf, hx]
  rfl

end Part

/-! ## Fields of a record -/

/-- The fields of a record as a file holds them. -/
def written (fs : List (String × Option Json)) : List (String × Document) :=
  fs.filterMap fun (name, value) => value.map fun json => (name, ofJson json)

/-- The fields of a record as they are read from its document. -/
def stored (fs : List (String × Option Json)) : Fields := ⟨written fs, false⟩

/-- The document of a record has the fields that are not left out. -/
theorem ofJson_record (fs : List (String × Option Json)) :
    ofJson (Json.record fs) = .table (written fs) := by
  rw [ofJson, Json.record, Tree.map, Tree.mapFields_eq, List.map_filterMap, written]
  simp only [Option.map_map, Function.comp_def]
  rfl

variable {fs : List (String × Option Json)} {name : String}

/-- A field is written just if it has a value. -/
theorem mem_written {d : Document} :
    (name, d) ∈ written fs ↔ ∃ json, (name, some json) ∈ fs ∧ ofJson json = d := by
  simp only [written, List.mem_filterMap, Option.map_eq_some_iff, Prod.mk.injEq]
  constructor
  · rintro ⟨⟨_, _⟩, hmem, json, rfl, rfl, rfl⟩
    exact ⟨json, hmem, rfl⟩
  · rintro ⟨json, hmem, rfl⟩
    exact ⟨_, hmem, json, rfl, rfl, rfl⟩

/-- Fields of different names are written under different names. -/
theorem nodup_written (hnodup : (fs.map Prod.fst).Nodup) : ((written fs).map Prod.fst).Nodup := by
  refine List.pairwise_map.2 ((List.pairwise_map.1 hnodup).filterMap _ ?_)
  rintro ⟨_, _⟩ ⟨_, _⟩ hne ⟨_, _⟩ hentry ⟨_, _⟩ hentry'
  obtain ⟨_, -, hpair⟩ := Option.map_eq_some_iff.1 hentry
  obtain ⟨_, -, hpair'⟩ := Option.map_eq_some_iff.1 hentry'
  obtain ⟨rfl, -⟩ := Prod.mk.inj hpair
  obtain ⟨rfl, -⟩ := Prod.mk.inj hpair'
  exact hne

/-- A name with a missing value is not written. -/
theorem not_mem_written (hnodup : (fs.map Prod.fst).Nodup) (hmem : (name, none) ∈ fs)
    (d : Document) : (name, d) ∉ written fs := by
  intro hd
  obtain ⟨json, hjson, -⟩ := mem_written.1 hd
  cases List.inj_on_of_nodup_map hnodup hmem hjson rfl

namespace Fields

/-- Nothing stands under a name that is not written. -/
theorem filter_zipIdx_eq_nil {entries : List (String × Document)} (h : ∀ d, (name, d) ∉ entries)
    (k : Nat) : (entries.zipIdx k).filter (fun ((known, _), _) => known == name) = [] := by
  refine List.filter_eq_nil_iff.2 ?_
  rintro ⟨⟨known, d⟩, i⟩ hmem heq
  obtain rfl : known = name := eq_of_beq heq
  exact h d (List.fst_mem_of_mem_zipIdx hmem)

/-- A field that was left out is written nowhere. -/
theorem places_of_none (hnodup : (fs.map Prod.fst).Nodup) (hmem : (name, none) ∈ fs) :
    (stored fs).places name = [] := by
  have hnothing := filter_zipIdx_eq_nil (not_mem_written hnodup hmem) 0
  rw [places, stored, hnothing, List.map_nil]

/-- A field that is there stands at one place. -/
theorem places_of_some (hnodup : (fs.map Prod.fst).Nodup) {json : Json}
    (hmem : (name, some json) ∈ fs) : ∃ i, (stored fs).places name = [(i, ofJson json)] := by
  have hwritten : (name, ofJson json) ∈ written fs := mem_written.2 ⟨json, hmem, rfl⟩
  have hdistinct := nodup_written hnodup
  obtain ⟨before, after, hsplit⟩ := List.append_of_mem hwritten
  rw [hsplit, List.map_append, List.map_cons, List.nodup_append, List.nodup_cons] at hdistinct
  obtain ⟨-, ⟨hafter, -⟩, hbefore⟩ := hdistinct
  have hnotBefore : ∀ d, (name, d) ∉ before := fun _ h =>
    hbefore name (List.mem_map.2 ⟨_, h, rfl⟩) name List.mem_cons_self rfl
  have hnotAfter : ∀ d, (name, d) ∉ after := fun _ h => hafter (List.mem_map.2 ⟨_, h, rfl⟩)
  refine ⟨0 + before.length, ?_⟩
  rw [places, stored, hsplit, List.zipIdx_append, List.zipIdx_cons, List.filter_append,
    filter_zipIdx_eq_nil hnotBefore]
  simp only [List.filter_cons, beq_self_eq_true, if_true]
  rw [filter_zipIdx_eq_nil hnotAfter]
  rfl

/-- A field is read from what it was made from; one that is missing is not there. -/
theorem read?_stored (hnodup : (fs.map Prod.fst).Nodup) {value : Option Json}
    (hmem : (name, value) ∈ fs) (decode : Decoder α) :
    ∃ i, ((stored fs).read? name decode).result =
      value.elim (.ok none) fun json =>
        ((decode (ofJson json)).map some).mapError fun error => (i, error) := by
  cases value with
  | none =>
    refine ⟨0, ?_⟩
    rw [read?, places_of_none hnodup hmem]
    rfl
  | some json =>
    obtain ⟨i, hplaces⟩ := places_of_some hnodup hmem
    refine ⟨i, ?_⟩
    rw [read?, hplaces, Option.elim_some]
    dsimp only
    cases decode (ofJson json) <;> rfl

/-- A field that must be there is read back if its value is. -/
theorem required_stored (hnodup : (fs.map Prod.fst).Nodup) {json : Json}
    (hmem : (name, some json) ∈ fs) {decode : Decoder α} {a : α}
    (hback : decode (ofJson json) = .ok a) :
    ((stored fs).required name decode).result = .ok a := by
  obtain ⟨i, hread⟩ := read?_stored hnodup hmem decode
  rw [Option.elim_some, hback] at hread
  rw [required, hread]
  rfl

/-- A field that may be missing is read back, or is missing. -/
theorem optional_stored (hnodup : (fs.map Prod.fst).Nodup) {value : Option Json}
    (hmem : (name, value) ∈ fs) (hnull : ∀ json ∈ value, isNull (ofJson json) = false)
    (decode : Decoder α) :
    ∃ i, ((stored fs).optional name decode).result =
      value.elim (.ok none) fun json =>
        ((decode (ofJson json)).map some).mapError fun error => (i, error) := by
  obtain ⟨i, hread⟩ := read?_stored hnodup hmem (Document.optional decode)
  refine ⟨i, ?_⟩
  rw [optional, defaulted, Part.result_map, hread]
  cases value with
  | none => rfl
  | some json =>
    rw [Option.elim_some, Option.elim_some, Document.optional, hnull json rfl, if_neg Bool.false_ne_true]
    cases decode (ofJson json) <;> rfl

/-- A field that may be missing comes back, whether it is there or not. -/
theorem optional_stored_map (encode : α → Json) (hnodup : (fs.map Prod.fst).Nodup) {a : Option α}
    (hmem : (name, a.map encode) ∈ fs) {decode : Decoder α}
    (hnull : ∀ a, isNull (ofJson (encode a)) = false)
    (hback : ∀ b ∈ a, decode (ofJson (encode b)) = .ok b) :
    ((stored fs).optional name decode).result = .ok a := by
  have hnull' : ∀ json ∈ a.map encode, isNull (ofJson json) = false := by
    intro json hjson
    obtain ⟨b, -, rfl⟩ := Option.map_eq_some_iff.1 hjson
    exact hnull b
  obtain ⟨i, hread⟩ := optional_stored hnodup hmem hnull' decode
  rw [hread]
  cases a with
  | none => rfl
  | some b =>
    rw [Option.map_some, Option.elim_some, hback b rfl]
    rfl

end Fields

/-- A record is read from its fields if it knows them all. -/
theorem record_written {spellings : List (List String)}
    (hknown : ∀ name ∈ fs.map Prod.fst, fieldName? spellings name = some name)
    (build : Fields → Part α) :
    record spellings build (ofJson (Json.record fs)) =
      (build (stored fs)).result.mapError Prod.snd := by
  have hfields : (written fs).filterMap (fun (name, d) => (fieldName? spellings name).map (·, d)) =
      written fs := by
    refine (List.filterMap_congr ?_).trans List.filterMap_some
    rintro ⟨name, d⟩ hd
    obtain ⟨json, hmem, -⟩ := mem_written.1 hd
    dsimp only
    rw [hknown name (List.mem_map_of_mem (f := Prod.fst) hmem), Option.map_some]
  rw [record, ofJson_record, fields, hfields]
  dsimp only [bind, Except.bind, stored]
  cases (build ⟨written fs, false⟩).result <;> rfl

end Document

end RuleSieve
