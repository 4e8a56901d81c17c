/-
  Expressions and their records.

  All nodes of an expression are stored as records with the same four fields, and the operator decides
  which of them may be there (`Fits`).  A tree of records stores an expression if every node of it
  fits; otherwise its fault is that of the first node that does not, where the parts of a node come
  before the node (`fault?_ofRecord`).

  An operator has two names, and no two operators share one (`Operator.Named.unique`).  So what is
  stored under either name is stored again under the tag, and nothing else changes
  (`toRecord_of_ofRecord`).
-/
import RuleSieve.Expression.Record
import RuleSieve.Proofs.Traversal

namespace RuleSieve

open Outcome (fault?)

/-! ## Names of operators -/

namespace Operator

variable {op op' : Operator} {name : String}

/-- The operator goes by the name, in expressions or in rules. -/
def Named (op : Operator) (name : String) : Prop := op.tag = name ∨ op.displayName = name

/-- Every operator is in the list of operators. -/
theorem mem_all (op : Operator) : op ∈ all := by
  rcases op with op | op <;> cases op <;> decide

/-- The names of all operators differ, whether they are tags or not. -/
theorem names_disjoint : ∀ op ∈ all, ∀ op' ∈ all, op.tag = op'.tag ∨ op.tag = op'.displayName ∨
    op.displayName = op'.tag ∨ op.displayName = op'.displayName → op = op' := by
  decide +kernel

/-- A name belongs to one operator at most. -/
theorem Named.unique (h : op.Named name) (h' : op'.Named name) : op = op' := by
  refine names_disjoint op (mem_all op) op' (mem_all op') ?_
  rcases h with rfl | rfl <;> rcases h' with h' | h' <;> simp [h']

/-- A name that is found is one of the operator's. -/
theorem named_of_ofName? (h : ofName? name = some op) : op.Named name := by
  simpa [Named] using List.find?_some h

/-- A name is unknown just if it names no operator. -/
theorem ofName?_eq_none_iff : ofName? name = none ↔ ∀ op : Operator, ¬ op.Named name := by
  simp [ofName?, List.find?_eq_none, Named, mem_all]

/-- A name is looked up just if it names the operator. -/
theorem ofName?_eq_some_iff : ofName? name = some op ↔ op.Named name := by
  refine ⟨named_of_ofName?, fun h => ?_⟩
  cases hfound : ofName? name with
  | none => exact absurd h (ofName?_eq_none_iff.1 hfound op)
  | some found => rw [(named_of_ofName? hfound).unique h]

/-- The tag of the operator that a name belongs to; a name of no operator stays. -/
def tagOf (name : String) : String := (ofName? name).elim name tag

/-- Every name of an operator is replaced by its tag. -/
theorem tagOf_of_named (h : op.Named name) : tagOf name = op.tag := by
  rw [tagOf, ofName?_eq_some_iff.2 h, Option.elim_some]

end Operator

/-! ## Trees of records -/

namespace ExpressionRecord

/-- Induction over a tree of records, with a hypothesis for each part of a node that has parts. -/
@[elab_as_elim, induction_eliminator]
theorem induct {motive : ExpressionRecord → Prop}
    (bare : ∀ name patternId operand, motive (.node name patternId operand none))
    (above : ∀ name patternId operand parts, (∀ part ∈ parts, motive part) →
      motive (.node name patternId operand (some parts))) (r : ExpressionRecord) : motive r :=
  -- over a field the motive is that of all parts in it
  @ExpressionRecord.rec motive (fun field => ∀ parts, field = some parts → ∀ part ∈ parts, motive part)
    (fun parts => ∀ part ∈ parts, motive part)
    (fun name patternId operand field hfield => match field with
      | none => bare name patternId operand
      | some parts => above name patternId operand parts (hfield parts rfl))
    (fun _ h => nomatch h)
    (fun _ hparts _ h => Option.some.inj h ▸ hparts)
    (fun _ h => absurd h List.not_mem_nil)
    (fun _ _ hpart hparts => List.forall_mem_cons.2 ⟨hpart, hparts⟩) r

mutual

/-- All nodes of a tree, each after its parts. -/
def nodes : ExpressionRecord → List ExpressionRecord
  | .node name patternId operand none => [.node name patternId operand none]
  | .node name patternId operand (some parts) =>
    nodesOfParts parts ++ [.node name patternId operand (some parts)]

/-- All nodes of several trees. -/
def nodesOfParts : List ExpressionRecord → List ExpressionRecord
  | [] => []
  | part :: parts => part.nodes ++ nodesOfParts parts

end

theorem nodesOfParts_eq (parts : List ExpressionRecord) :
    nodesOfParts parts = parts.flatMap nodes :=
  flatMap_of_cons rfl (fun _ _ => rfl) parts

/-- The nodes of a record come after those of its parts. -/
theorem nodes_above (name : String) (patternId : Option String) (operand : Option Operand)
    (parts : List ExpressionRecord) :
    (node name patternId operand (some parts)).nodes =
      parts.flatMap nodes ++ [node name patternId operand (some parts)] := by
  rw [nodes, nodesOfParts_eq]

theorem mem_nodes_self (r : ExpressionRecord) : r ∈ r.nodes := by
  obtain ⟨_, _, _, _ | _⟩ := r
  · rw [nodes]
    exact List.mem_singleton_self _
  · rw [nodes]
    exact List.mem_append_right _ (List.mem_singleton_self _)

mutual

/-- The tree with the name of every node replaced. -/
def mapNames (f : String → String) : ExpressionRecord → ExpressionRecord
  | .node name patternId operand none => .node (f name) patternId operand none
  | .node name patternId operand (some parts) =>
    .node (f name) patternId operand (some (mapNamesOfParts f parts))

/-- Several trees with the name of every node replaced. -/
def mapNamesOfParts (f : String → String) : List ExpressionRecord → List ExpressionRecord
  | [] => []
  | part :: parts => part.mapNames f :: mapNamesOfParts f parts

end

theorem mapNamesOfParts_eq (f : String → String) (parts : List ExpressionRecord) :
    mapNamesOfParts f parts = parts.map (mapNames f) :=
  map_of_cons rfl (fun _ _ => rfl) parts

/-- Names are replaced in a record and in all its parts. -/
theorem mapNames_above (f : String → String) (name : String) (patternId : Option String)
    (operand : Option Operand) (parts : List ExpressionRecord) :
    (node name patternId operand (some parts)).mapNames f =
      node (f name) patternId operand (some (parts.map (mapNames f))) := by
  rw [mapNames, mapNamesOfParts_eq]

/-! ## Nodes that fit -/

/-- The fields of the node are those of its operator: a leaf has no list of parts, not even an empty
    one, and a group has nothing but parts, and at least one. -/
inductive Fits : ExpressionRecord → Prop
  | leaf {op : LeafOperator} {name : String} {patternId : Option String} {operand : Option Operand}
      (hname : (Operator.leaf op).Named name) : Fits (.node name patternId operand none)
  | group {op : GroupOperator} {name : String} {first : ExpressionRecord}
      {rest : List ExpressionRecord} (hname : (Operator.group op).Named name) :
      Fits (.node name none none (some (first :: rest)))

/-- What is wrong with the fields of the node, and the fault that tells it. -/
inductive Breaks : ExpressionRecord → Fault → Prop
  | unknownOperator {name : String} {patternId : Option String} {operand : Option Operand}
      {parts : Option (List ExpressionRecord)} (hname : ∀ op : Operator, ¬ op.Named name) :
      Breaks (.node name patternId operand parts) (.unknownOperator name)
  | leafWithParts {op : LeafOperator} {name : String} {patternId : Option String}
      {operand : Option Operand} {parts : List ExpressionRecord}
      (hname : (Operator.leaf op).Named name) :
      Breaks (.node name patternId operand (some parts)) (.schema (.leafWithParts op))
  | groupWithOperand {op : GroupOperator} {name : String} {patternId : Option String}
      {operand : Option Operand} {parts : Option (List ExpressionRecord)}
      (hname : (Operator.group op).Named name) (hcarries : patternId ≠ none ∨ operand ≠ none) :
      Breaks (.node name patternId operand parts) (.schema (.groupWithOperand op))
  | noParts {op : GroupOperator} {name : String} {parts : Option (List ExpressionRecord)}
      (hname : (Operator.group op).Named name) (hparts : parts = none ∨ parts = some []) :
      Breaks (.node name none none parts) (.schema (.noParts op))

/-- What is wrong is an operator that is not known, or fields that are not those of the operator. -/
theorem Breaks.kind {r : ExpressionRecord} {fault : Fault} (h : r.Breaks fault) :
    fault.kind = .unknownOperator ∨ fault.kind = .schemaViolation := by
  cases h with
  | unknownOperator => exact .inl rfl
  | leafWithParts | groupWithOperand | noParts => exact .inr rfl

/-- The fault of a node, whatever its parts store. -/
def nodeFault? : ExpressionRecord → Option Fault
  | .node name patternId operand parts =>
    match Operator.ofName? name with
    | none => some (.unknownOperator name)
    | some (.leaf op) => if parts.isSome then some (.schema (.leafWithParts op)) else none
    | some (.group op) =>
      if patternId.isSome || operand.isSome then some (.schema (.groupWithOperand op))
      else if (parts.getD []).isEmpty then some (.schema (.noParts op)) else none

variable {r : ExpressionRecord} {fault : Fault}

/-- A node that fits has no fault. -/
theorem Fits.nodeFault?_eq_none (h : r.Fits) : r.nodeFault? = none := by
  cases h with
  | leaf hname => rw [nodeFault?, Operator.ofName?_eq_some_iff.2 hname]; rfl
  | group hname => rw [nodeFault?, Operator.ofName?_eq_some_iff.2 hname]; rfl

/-- A node that breaks a rule of form has the fault that goes with the rule. -/
theorem Breaks.nodeFault?_eq_some (h : r.Breaks fault) : r.nodeFault? = some fault := by
  cases h with
  | unknownOperator hname => rw [nodeFault?, Operator.ofName?_eq_none_iff.2 hname]
  | leafWithParts hname => rw [nodeFault?, Operator.ofName?_eq_some_iff.2 hname]; rfl
  | groupWithOperand hname hcarries =>
    rw [nodeFault?, Operator.ofName?_eq_some_iff.2 hname]
    refine if_pos ?_
    rwa [Bool.or_eq_true, Option.isSome_iff_ne_none, Option.isSome_iff_ne_none]
  | noParts hname hparts =>
    rw [nodeFault?, Operator.ofName?_eq_some_iff.2 hname]
    rcases hparts with rfl | rfl <;> rfl

/-- There is no node of which neither can be said. -/
theorem fits_or_breaks (r : ExpressionRecord) : r.Fits ∨ ∃ fault, r.Breaks fault := by
  obtain ⟨name, patternId, operand, parts⟩ := r
  cases hname : Operator.ofName? name with
  | none => exact .inr ⟨_, .unknownOperator (Operator.ofName?_eq_none_iff.1 hname)⟩
  | some op =>
    have hnamed := Operator.named_of_ofName? hname
    cases op with
    | leaf op =>
      cases parts with
      | none => exact .inl (.leaf hnamed)
      | some parts => exact .inr ⟨_, .leafWithParts hnamed⟩
    | group op =>
      by_cases hcarries : patternId ≠ none ∨ operand ≠ none
      · exact .inr ⟨_, .groupWithOperand hnamed hcarries⟩
      · obtain ⟨rfl, rfl⟩ : patternId = none ∧ operand = none := by
          simpa only [not_or, not_not] using hcarries
        match parts with
        | none => exact .inr ⟨_, .noParts hnamed (.inl rfl)⟩
        | some [] => exact .inr ⟨_, .noParts hnamed (.inr rfl)⟩
        | some (first :: rest) => exact .inl (.group hnamed)

/-- A node fits just if it has no fault, since a node that does not breaks some rule. -/
theorem nodeFault?_eq_none_iff : r.nodeFault? = none ↔ r.Fits := by
  refine ⟨fun h => ?_, Fits.nodeFault?_eq_none⟩
  rcases r.fits_or_breaks with hfits | ⟨fault, hbreaks⟩
  · exact hfits
  · rw [hbreaks.nodeFault?_eq_some] at h
    cases h

theorem nodeFault?_eq_some_iff : r.nodeFault? = some fault ↔ r.Breaks fault := by
  refine ⟨fun h => ?_, Breaks.nodeFault?_eq_some⟩
  rcases r.fits_or_breaks with hfits | ⟨fault', hbreaks⟩
  · rw [hfits.nodeFault?_eq_none] at h
    cases h
  · rw [hbreaks.nodeFault?_eq_some] at h
    rwa [← Option.some.inj h]

end ExpressionRecord

/-! ## What records store -/

namespace Expression

open ExpressionRecord (nodeFault?)

variable {name : String} {patternId : Option String} {operand : Option Operand}
  {r : ExpressionRecord} {e : Expression} {fault : Fault}

theorem ofRecords_eq (records : List ExpressionRecord) :
    ofRecords records = records.mapM ofRecord := by
  induction records with
  | nil => rfl
  | cons record records ih => rw [ofRecords, ih, List.mapM_cons]

/-- A record with parts is read from its parts and from itself. -/
theorem ofRecord_above (name : String) (patternId : Option String) (operand : Option Operand)
    (parts : List ExpressionRecord) :
    ofRecord (.node name patternId operand (some parts)) = (do
      ofNode name patternId operand (some (← parts.mapM ofRecord))) := by
  rw [ofRecord, ofRecords_eq]

theorem toRecords_eq (es : List Expression) : toRecords es = es.map toRecord :=
  map_of_cons rfl (fun _ _ => rfl) es

/-- A group is stored under the tag of its operator, with its parts. -/
theorem toRecord_group (op : GroupOperator) (first : Expression) (rest : List Expression) :
    (group op first rest).toRecord =
      .node op.tag none none (some ((first :: rest).map toRecord)) := by
  rw [toRecord, toRecords_eq, List.map_cons]

/-- The node itself is looked at without its parts: only their number counts. -/
theorem fault?_ofNode {es : Option (List Expression)} {parts : Option (List ExpressionRecord)}
    (h : es.map List.length = parts.map List.length) :
    fault? (ofNode name patternId operand es) =
      (ExpressionRecord.node name patternId operand parts).nodeFault? := by
  have hsome : es.isSome = parts.isSome := by
    rw [← Option.isSome_map (f := List.length), h, Option.isSome_map]
  have hempty : (es.getD []).isEmpty = (parts.getD []).isEmpty := by
    have hlength : (es.getD []).length = (parts.getD []).length := by
      match es, parts, h with
      | none, none, _ => rfl
      | some _, some _, h => exact Option.some.inj h
    rw [Bool.eq_iff_iff, List.isEmpty_iff_length_eq_zero, List.isEmpty_iff_length_eq_zero, hlength]
  rw [ofNode, nodeFault?]
  cases Operator.ofName? name with
  | none => rfl
  | some op =>
    cases op with
    | leaf op =>
      simp only [hsome]
      split <;> rfl
    | group op =>
      simp only [← hempty]
      split
      · rfl
      · cases es.getD [] <;> rfl

/-- The fault of a tree is that of the first node that has one, the parts of a node before the node. -/
theorem fault?_ofRecord (r : ExpressionRecord) :
    fault? (ofRecord r) = r.nodes.findSome? nodeFault? := by
  induction r with
  | bare name patternId operand =>
    rw [ExpressionRecord.nodes, List.findSome?_singleton]
    exact fault?_ofNode rfl
  | above name patternId operand parts ih =>
    have hparts : fault? (parts.mapM ofRecord) =
        (parts.flatMap ExpressionRecord.nodes).findSome? nodeFault? := by
      rw [Outcome.fault?_mapM]
      exact Outcome.findSome?_flatMap ih
    rw [ofRecord_above, ExpressionRecord.nodes_above, List.findSome?_append, ← hparts,
      List.findSome?_singleton]
    cases hes : parts.mapM ofRecord with
    | error fault => rfl
    | ok es =>
      exact fault?_ofNode (congrArg some (Outcome.mapM_eq_ok_iff.1 hes).length_eq.symm)

/-- A record is read just if every node of it fits. -/
theorem exists_ofRecord_iff : (∃ e, ofRecord r = .ok e) ↔ ∀ node ∈ r.nodes, node.Fits := by
  rw [← Outcome.fault?_eq_none_iff, fault?_ofRecord, List.findSome?_eq_none_iff]
  simp only [ExpressionRecord.nodeFault?_eq_none_iff]

/-- The fault of a record is that of the first node that does not fit, parts before the whole. -/
theorem ofRecord_eq_error_iff : ofRecord r = .error fault ↔
    ∃ before node after, r.nodes = before ++ node :: after ∧ (∀ k ∈ before, k.Fits) ∧
      node.Breaks fault := by
  rw [← Outcome.fault?_eq_some_iff, fault?_ofRecord, List.findSome?_eq_some_iff]
  simp only [ExpressionRecord.nodeFault?_eq_none_iff, ExpressionRecord.nodeFault?_eq_some_iff]
  constructor
  · rintro ⟨before, node, after, hnodes, hbreaks, hfits⟩
    exact ⟨before, node, after, hnodes, hfits, hbreaks⟩
  · rintro ⟨before, node, after, hnodes, hfits, hbreaks⟩
    exact ⟨before, node, after, hnodes, hbreaks, hfits⟩

/-! ## There and back -/

theorem ofNode_leaf {op : LeafOperator} (hname : (Operator.leaf op).Named name) :
    ofNode name patternId operand none = .ok (.leaf ⟨op, patternId, operand⟩) := by
  rw [ofNode, Operator.ofName?_eq_some_iff.2 hname]
  rfl

/-- A group is read from any name of its operator and its parts. -/
theorem ofNode_group {op : GroupOperator} (hname : (Operator.group op).Named name)
    (first : Expression) (rest : List Expression) :
    ofNode name none none (some (first :: rest)) = .ok (.group op first rest) := by
  rw [ofNode, Operator.ofName?_eq_some_iff.2 hname]
  rfl

/-- An expression comes back from its record. -/
theorem ofRecord_toRecord (e : Expression) : ofRecord e.toRecord = .ok e := by
  induction e with
  | leaf l => exact ofNode_leaf (.inl rfl)
  | group op first rest ih =>
    have hparts : ((first :: rest).map toRecord).mapM ofRecord = .ok (first :: rest) := by
      rw [Outcome.mapM_eq_ok_iff, List.forall₂_map_left_iff, List.forall₂_same]
      exact ih
    rw [toRecord_group, ofRecord_above, hparts]
    exact ofNode_group (.inl rfl) first rest

/-- What is stored by an expression again is what it was stored by, under the tags of the operators. -/
theorem toRecord_of_ofRecord (h : ofRecord r = .ok e) : e.toRecord = r.mapNames Operator.tagOf := by
  induction r generalizing e with
  | bare name patternId operand =>
    have hfits := exists_ofRecord_iff.1 ⟨e, h⟩
    rw [ExpressionRecord.nodes, List.forall_mem_singleton] at hfits
    cases hfits with
    | leaf hname =>
      rw [ofRecord, ofNode_leaf hname] at h
      rw [← Except.ok.inj h, toRecord, ExpressionRecord.mapNames, Operator.tagOf_of_named hname]
      rfl
  | above name patternId operand parts ih =>
    have hfits := exists_ofRecord_iff.1 ⟨e, h⟩
    rw [ofRecord_above, Outcome.bind_eq_ok_iff] at h
    obtain ⟨es, hes, h⟩ := h
    rw [Outcome.mapM_eq_ok_iff] at hes
    have hrecords : es.map toRecord = parts.map (ExpressionRecord.mapNames Operator.tagOf) := by
      rw [← List.forall₂_eq_eq_eq, List.forall₂_map_left_iff, List.forall₂_map_right_iff]
      exact List.Forall₂.flip
        (((List.forall₂_and_left _ _).2 ⟨@ih, hes⟩).imp fun _ _ hpart => hpart.1 hpart.2)
    rw [ExpressionRecord.nodes_above, List.forall_mem_append, List.forall_mem_singleton] at hfits
    cases hfits.2 with
    | group hname =>
      obtain ⟨first, rest, -, -, rfl⟩ := List.forall₂_cons_left_iff.1 hes
      rw [ofNode_group hname] at h
      rw [← Except.ok.inj h, toRecord_group, ExpressionRecord.mapNames_above, hrecords,
        Operator.tagOf_of_named hname]
      rfl

end Expression

end RuleSieve
