/-
  Expressions as documents.

  A document holds the record of a node as a table of the fields that are there.  Reading the document
  of a tree of records is the same as building an expression from the tree (`decode_ofJson`), so what
  is known of records is true of the documents that hold them.
-/
import RuleSieve.Stored.Expression
import RuleSieve.Proofs.Document
import RuleSieve.Proofs.RecordForm
import RuleSieve.Proofs.Trace

namespace RuleSieve

open Document (ofJson isNull stored)
open Document.Part (result_map_ok result_seq result_seq_ok)
open Document.Fields (required_stored optional_stored optional_stored_map)

/-! ## Operands -/

/-- The base of the operand, if it has one, is a number of 32 bits. -/
def Operand.Storable : Operand → Prop
  | .text _ => True
  | .record condition => ∀ base ∈ condition.base, base < twoTo 32

namespace MetavariableCondition

/-- The fields of a condition under their names. -/
def fields (c : MetavariableCondition) : List (String × Option Json) :=
  [("metavariable", some (.text c.metavariable)), ("regex", c.regex.map .text),
   ("comparison", c.comparison.map .text), ("strip", c.strip.map .bool), ("base", c.base.map .nat)]

theorem nodup_fields (c : MetavariableCondition) : (c.fields.map Prod.fst).Nodup := by
  show (["metavariable", "regex", "comparison", "strip", "base"] : List String).Nodup
  decide

/-- A condition comes back from its document. -/
theorem decode_ofJson {c : MetavariableCondition} (h : ∀ base ∈ c.base, base < twoTo 32) :
    decode (ofJson c.toJson) = .ok c := by
  have hknown : ∀ name ∈ c.fields.map Prod.fst, Document.fieldName?
      [["metavariable"], ["regex"], ["comparison"], ["strip"], ["base"]] name = some name := by
    show ∀ name ∈ ["metavariable", "regex", "comparison", "strip", "base"], _
    decide +kernel
  have hnat : ∀ base ∈ c.base, Document.nat 32 (ofJson (.nat base)) = .ok base := by
    intro base hmem
    show Document.orMismatch ((some base).filter (· < twoTo 32)) = .ok base
    rw [Option.filter_some, decide_eq_true (h base hmem)]
    rfl
  have hname : ((stored c.fields).required "metavariable" Document.text).result =
      .ok c.metavariable := required_stored c.nodup_fields List.mem_cons_self rfl
  have hregex : ((stored c.fields).optional "regex" Document.text).result = .ok c.regex :=
    optional_stored_map .text c.nodup_fields (by simp [fields]) (fun _ => rfl) fun _ _ => rfl
  have hcomparison : ((stored c.fields).optional "comparison" Document.text).result =
      .ok c.comparison :=
    optional_stored_map .text c.nodup_fields (by simp [fields]) (fun _ => rfl) fun _ _ => rfl
  have hstrip : ((stored c.fields).optional "strip" Document.bool).result = .ok c.strip :=
    optional_stored_map .bool c.nodup_fields (by simp [fields]) (fun _ => rfl) fun _ _ => rfl
  have hbase : ((stored c.fields).optional "base" (Document.nat 32)).result = .ok c.base :=
    optional_stored_map .nat c.nodup_fields (by simp [fields]) (fun _ => rfl) hnat
  rw [decode, show c.toJson = .record c.fields from rfl, Document.record_written hknown,
    result_seq_ok (result_seq_ok (result_seq_ok (result_seq_ok (result_map_ok _ hname) hregex)
      hcomparison) hstrip) hbase]
  rfl

end MetavariableCondition

theorem Operand.isNull_ofJson (operand : Operand) : isNull (ofJson operand.toJson) = false := by
  cases operand <;> rfl

/-- An operand comes back from its document, be it a text or a condition. -/
theorem Operand.decode_ofJson {operand : Operand} (h : operand.Storable) :
    decode (ofJson operand.toJson) = .ok operand := by
  rw [decode, Document.resolve_ofJson]
  cases operand with
  | text s => rfl
  | record condition =>
    have hcondition := MetavariableCondition.decode_ofJson h
    show (do return Operand.record (← MetavariableCondition.decode (ofJson condition.toJson))) = _
    rw [hcondition]
    rfl

/-! ## Nodes -/

namespace ExpressionRecord

variable {name : String} {patternId : Option String} {operand : Option Operand}

/-- The operand of the node at the root. -/
def operand? : ExpressionRecord → Option Operand
  | .node _ _ operand _ => operand

/-- Every number in the tree is one of 32 bits. -/
def Storable (r : ExpressionRecord) : Prop :=
  ∀ node ∈ r.nodes, ∀ operand ∈ node.operand?, operand.Storable

theorem Storable.root {parts : Option (List ExpressionRecord)}
    (h : (node name patternId operand parts).Storable) : ∀ o ∈ operand, o.Storable :=
  h _ (mem_nodes_self _)

theorem Storable.part {parts : List ExpressionRecord}
    (h : (node name patternId operand (some parts)).Storable) :
    ∀ part ∈ parts, part.Storable := by
  intro part hpart k hk
  refine h k ?_
  rw [nodes_above]
  exact List.mem_append_left _ (List.mem_flatMap.2 ⟨part, hpart, hk⟩)

/-- The fields of a node under their names. -/
def fields (name : String) (patternId : Option String) (operand : Option Operand)
    (parts : Option (List ExpressionRecord)) : List (String × Option Json) :=
  [("operator", some (.text name)), ("pattern_id", patternId.map .text),
   ("operand", operand.map Operand.toJson), ("children", partsToJson parts)]

theorem toJson_node (parts : Option (List ExpressionRecord)) :
    (node name patternId operand parts).toJson = .record (fields name patternId operand parts) := by
  rw [toJson, fields]

theorem nodup_fields (name : String) (patternId : Option String) (operand : Option Operand)
    (parts : Option (List ExpressionRecord)) :
    ((fields name patternId operand parts).map Prod.fst).Nodup := by
  show (["operator", "pattern_id", "operand", "children"] : List String).Nodup
  decide

theorem recordsToJson_eq (parts : List ExpressionRecord) :
    recordsToJson parts = parts.map toJson :=
  map_of_cons rfl (fun _ _ => rfl) parts

/-- The documents of the parts have fewer levels than that of the node. -/
theorem depth_lt_of_mem (name : String) (patternId : Option String) (operand : Option Operand)
    {parts : List ExpressionRecord} {part : ExpressionRecord} (hpart : part ∈ parts) :
    (ofJson part.toJson).depth <
      (ofJson (node name patternId operand (some parts)).toJson).depth := by
  have hfield : ("children", ofJson (.list (parts.map toJson))) ∈
      Document.written (fields name patternId operand (some parts)) :=
    Document.mem_written.2 ⟨_, by simp [fields, partsToJson, recordsToJson_eq], rfl⟩
  have hitem : ofJson part.toJson ∈ (parts.map toJson).map ofJson :=
    List.mem_map_of_mem (List.mem_map_of_mem hpart)
  have hlist : (ofJson (.list (parts.map toJson))).depth =
      Tree.depthOfItems ((parts.map toJson).map ofJson) + 1 := by
    rw [ofJson, Tree.map, Tree.depth, Tree.mapItems_eq]
    rfl
  have hle := Tree.depth_le_depthOfItems hitem
  have hle' := Tree.depth_le_depthOfFields hfield
  rw [toJson_node, Document.ofJson_record, Tree.depth]
  omega

end ExpressionRecord

/-! ## Expressions -/

namespace Expression

open ExpressionRecord (fields nodup_fields)

variable {name : String} {patternId : Option String} {operand : Option Operand}

/-- A node is built from what its fields were made from and from what is read in its parts. -/
theorem decodeWithin_node {depth : Nat} (hoperand : ∀ o ∈ operand, o.Storable)
    {parts : Option (List ExpressionRecord)} {es : Except Fault (Option (List Expression))}
    (hparts : ((partsToJson parts).elim (.ok none) fun json =>
      (Document.list (decodeWithin depth) (ofJson json)).map some) = es.mapError DecodeError.fault) :
    decodeWithin (depth + 1) (ofJson (ExpressionRecord.node name patternId operand parts).toJson) =
      (es >>= ofNode name patternId operand).mapError .fault := by
  have hknown : ∀ field ∈ (fields name patternId operand parts).map Prod.fst, Document.fieldName?
      [["operator"], ["pattern_id"], ["operand"], ["children"]] field = some field := by
    show ∀ field ∈ ["operator", "pattern_id", "operand", "children"], _
    decide +kernel
  have hnodup := nodup_fields name patternId operand parts
  have hname : ((stored (fields name patternId operand parts)).required "operator"
      Document.text).result = .ok name := required_stored hnodup List.mem_cons_self rfl
  have hpatternId : ((stored (fields name patternId operand parts)).optional "pattern_id"
      Document.text).result = .ok patternId :=
    optional_stored_map .text hnodup (by simp [fields]) (fun _ => rfl) fun _ _ => rfl
  have hoperand : ((stored (fields name patternId operand parts)).optional "operand"
      Operand.decode).result = .ok operand :=
    optional_stored_map Operand.toJson hnodup (by simp [fields]) Operand.isNull_ofJson
      fun o ho => Operand.decode_ofJson (hoperand o ho)
  have hlist : ∀ json ∈ partsToJson parts, isNull (ofJson json) = false := by
    intro json hjson
    cases parts with
    | none => cases hjson
    | some parts =>
      obtain rfl := Option.some.inj hjson
      rfl
  have hfield : ("children", partsToJson parts) ∈ fields name patternId operand parts := by
    simp [fields]
  obtain ⟨i, hread⟩ := optional_stored hnodup hfield hlist (Document.list (decodeWithin depth))
  have hchildren : ((stored (fields name patternId operand parts)).optional "children"
      (Document.list (decodeWithin depth))).result =
      (es.mapError DecodeError.fault).mapError fun error => (i, error) := by
    rw [hread, ← hparts]
    cases partsToJson parts <;> rfl
  rw [decodeWithin, ExpressionRecord.toJson_node]
  dsimp only
  rw [Document.record_written hknown,
    result_seq (result_seq_ok (result_seq_ok (result_map_ok _ hname) hpatternId) hoperand),
    hchildren]
  cases es <;> rfl

/-- Reading the document of a tree of records is building an expression from the tree. -/
theorem decodeWithin_ofJson {r : ExpressionRecord} (h : r.Storable) {depth : Nat}
    (hdepth : (ofJson r.toJson).depth ≤ depth) :
    decodeWithin depth (ofJson r.toJson) = (ofRecord r).mapError .fault := by
  induction r generalizing depth with
  | bare name patternId operand =>
    obtain ⟨depth, rfl⟩ := Tree.exists_eq_succ_of_depth_le hdepth
    have hparts : (partsToJson none).elim (.ok none) (fun json =>
        (Document.list (decodeWithin depth) (ofJson json)).map some) =
        (Except.ok none).mapError DecodeError.fault := rfl
    exact decodeWithin_node h.root hparts
  | above name patternId operand parts ih =>
    obtain ⟨depth, rfl⟩ := Tree.exists_eq_succ_of_depth_le hdepth
    have hread : ∀ part ∈ parts, decodeWithin depth (ofJson part.toJson) =
        (ofRecord part).mapError .fault := by
      intro part hpart
      have hlt := ExpressionRecord.depth_lt_of_mem name patternId operand hpart
      exact ih part hpart (h.part part hpart) (by omega)
    have hparts : (partsToJson (some parts)).elim (.ok none) (fun json =>
        (Document.list (decodeWithin depth) (ofJson json)).map some) =
        ((parts.mapM ofRecord).map some).mapError DecodeError.fault := by
      rw [partsToJson, Option.elim_some, Document.list_ofJson, ExpressionRecord.recordsToJson_eq,
        List.mapM_map, Function.comp_def, Outcome.mapM_congr hread, Outcome.mapM_mapError]
      cases parts.mapM ofRecord <;> rfl
    rw [ofRecord_above, decodeWithin_node h.root hparts]
    cases parts.mapM ofRecord <;> rfl

/-- An expression is read from the document of a tree of records if the tree stores one, and otherwise
    the fault of the tree is found. -/
theorem decode_ofJson {r : ExpressionRecord} (h : r.Storable) :
    decode (ofJson r.toJson) = (ofRecord r).mapError .fault :=
  decodeWithin_ofJson h (Nat.le_refl _)

/-! ## The form of stored expressions -/

/-- The parts of a group; a leaf has none. -/
def parts : Expression → List Expression
  | .leaf _ => []
  | .group _ first rest => first :: rest

/-- What trees of records have to do with expressions.

    Every expression comes back from its record.  A tree stores an expression just if all its nodes
    fit, and otherwise it has the fault of the first node that does not; this is an operator that is
    not known, or a violation of the schema.  An expression that is stored has no group without parts,
    however deep, and storing it again replaces the names of operators by their tags and leaves the
    rest.  Documents are read as the trees they hold. -/
theorem stored_form (r : ExpressionRecord) (e : Expression) (fault : Fault) :
    ofRecord e.toRecord = .ok e ∧
    ((∃ e', ofRecord r = .ok e') ↔ ∀ node ∈ r.nodes, node.Fits) ∧
    (ofRecord r = .error fault ↔ ∃ before node after, r.nodes = before ++ node :: after ∧
      (∀ k ∈ before, k.Fits) ∧ node.Breaks fault) ∧
    (ofRecord r = .error fault →
      fault.kind = .unknownOperator ∨ fault.kind = .schemaViolation) ∧
    (ofRecord r = .ok e →
      (∀ sub ∈ e.postorder, ∀ op, sub.operator = .group op → sub.parts ≠ []) ∧
      (∀ node ∈ e.toRecord.nodes, node.Fits) ∧
      e.toRecord = r.mapNames Operator.tagOf) ∧
    (∀ (op : Operator) (name : String), op.Named name → Operator.tagOf name = op.tag) ∧
    (r.Storable → decode (ofJson r.toJson) = (ofRecord r).mapError .fault) ∧
    (e.toRecord.Storable → decode (ofJson e.toJson) = .ok e) := by
  have hback := ofRecord_toRecord e
  refine ⟨hback, exists_ofRecord_iff, ofRecord_eq_error_iff, fun hfault => ?_, fun hstored => ?_,
    fun _ _ => Operator.tagOf_of_named, decode_ofJson, fun hstorable => ?_⟩
  · obtain ⟨_, _, _, -, -, hbreaks⟩ := ofRecord_eq_error_iff.1 hfault
    exact hbreaks.kind
  · refine ⟨fun sub _ op hop => ?_, exists_ofRecord_iff.1 ⟨e, hback⟩, toRecord_of_ofRecord hstored⟩
    cases sub with
    | leaf l => cases hop
    | group op first rest => exact List.cons_ne_nil first rest
  · rw [toJson, decode_ofJson hstorable, hback]
    rfl

/-- A tree under names of both kinds. -/
def mixedRecord : ExpressionRecord :=
  .node "patterns" none none (some
    [.node "AND_INSIDE" (some "p") none none,
     .node "pattern-either" none none (some
       [.node "metavariable-regex" (some "q")
          (some (.record ⟨"$X", some "foo.*", none, none, some 16⟩)) none])])

/-- What `mixedRecord` stores. -/
def mixedExpression : Expression :=
  .group .all (.leaf ⟨.patternInside, some "p", none⟩)
    [.group .either (.leaf ⟨.metavariableRegex, some "q",
      some (.record ⟨"$X", some "foo.*", none, none, some 16⟩)⟩) []]

/-- A group whose parts do not fit, the first of them because of an empty list. -/
def brokenRecord : ExpressionRecord :=
  .node "AND_ALL" none none (some
    [.node "pattern" (some "p") none (some []), .node "AND_MAYBE" none none none])

theorem stored_form_mixed :
    (∀ node ∈ mixedRecord.nodes, node.Fits) ∧
    mixedExpression.toRecord = mixedRecord.mapNames Operator.tagOf ∧
    decode (ofJson mixedRecord.toJson) = .ok mixedExpression ∧
    decode (ofJson mixedExpression.toJson) = .ok mixedExpression ∧
    Operator.tagOf "pattern-either" = "AND_EITHER" ∧
    (∃ before node after, brokenRecord.nodes = before ++ node :: after ∧
      (∀ k ∈ before, k.Fits) ∧ node.Breaks (.schema (.leafWithParts .pattern))) ∧
    ((Fault.schema (.leafWithParts .pattern)).kind = .unknownOperator ∨
      (Fault.schema (.leafWithParts .pattern)).kind = .schemaViolation) := by
  have hstored : ofRecord mixedRecord = .ok mixedExpression := rfl
  have hbroken : ofRecord brokenRecord = .error (.schema (.leafWithParts .pattern)) := rfl
  have hstorable : mixedRecord.Storable := by
    simp [ExpressionRecord.Storable, mixedRecord, ExpressionRecord.nodes,
      ExpressionRecord.nodesOfParts, ExpressionRecord.operand?, Operand.Storable, twoTo]
  have hstorable' : mixedExpression.toRecord.Storable := by
    simp [ExpressionRecord.Storable, mixedExpression, toRecord, toRecords, ExpressionRecord.nodes,
      ExpressionRecord.nodesOfParts, ExpressionRecord.operand?, Operand.Storable, twoTo]
  obtain ⟨-, hfits, -, -, hobtained, htag, hread, hreread⟩ :=
    stored_form mixedRecord mixedExpression (.schema (.leafWithParts .pattern))
  obtain ⟨-, -, hfirst, hkind, -⟩ :=
    stored_form brokenRecord mixedExpression (.schema (.leafWithParts .pattern))
  refine ⟨hfits.1 ⟨_, hstored⟩, (hobtained hstored).2.2, ?_, hreread hstorable',
    htag (.group .either) "pattern-either" (.inr rfl), hfirst.1 hbroken, hkind hbroken⟩
  rw [hread hstorable, hstored]
  rfl

end Expression

end RuleSieve
