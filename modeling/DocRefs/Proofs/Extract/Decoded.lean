import DocRefs.Extract.Decoded

/-!
# Decoding by kind

What a scalar, a sequence and a mapping are decoded to. A mapping without merge keys is decoded pair
by pair, as it is written.
-/
namespace DocRefs

namespace Node

/-- No pair of the mapping merges others into it. -/
def Unmerged (n : Node) : Prop := ∀ pair ∈ n.pairs, pair.1.isMergeKey = false

theorem splice_of_unmerged (taken : List String) {pairs : List (Node × Node)}
    (unmerged : ∀ pair ∈ pairs, pair.1.isMergeKey = false) : splice taken pairs = pairs := by
  induction pairs with
  | nil => rfl
  | cons pair rest ih =>
    obtain ⟨here, later⟩ := List.forall_mem_cons.mp unmerged
    rw [splice, here, if_neg Bool.false_ne_true, ih later]

theorem Unmerged.effectivePairs_eq {n : Node} (unmerged : n.Unmerged) :
    n.effectivePairs = n.pairs := by
  cases n with
  | mapping info pairs =>
    rw [effectivePairs, mappingPairs]
    exact splice_of_unmerged _ unmerged
  | _ => rfl

end Node

namespace Decoded

/-- What is decoded of a node that is neither an alias nor a document. -/
def ofContent : Node → Decoded
  | .mapping info pairs =>
    let entries := (Node.mapping info pairs).effectivePairs.map fun pair =>
      (pair.1.text, ofNode pair.2)
    .mapping (OrderedMap.ofList entries).toList
  | .sequence _ items => .sequence (items.map ofNode)
  | .scalar info text => ofScalar info text
  | n => .node n

/-- Decoding goes through pairs and items with the proofs that they are below the node, which make no
difference. -/
theorem ofNode_eq_ofContent (n : Node) : ofNode n = ofContent n.content := by
  rw [ofNode]
  split
  next info pairs content_eq =>
    have entries : ((Node.mapping info pairs).effectivePairs.attach.map fun pair =>
        (pair.1.1.text, ofNode pair.1.2)) =
          (Node.mapping info pairs).effectivePairs.map fun pair => (pair.1.text, ofNode pair.2) := by
      calc _ = ((Node.mapping info pairs).effectivePairs.attach.map Subtype.val).map fun pair =>
              (pair.1.text, ofNode pair.2) := by rw [List.map_map]; rfl
        _ = _ := by rw [List.attach_map_subtype_val]
    rw [content_eq, ofContent, ← entries]
  next info items content_eq =>
    have each : (items.attach.map fun item => ofNode item.1) = items.map ofNode :=
      List.attach_map_val ..
    rw [content_eq, ofContent, ← each]
  next content_eq => rw [content_eq, ofContent]
  next content_eq => rw [content_eq]; rfl
  next content_eq => rw [content_eq]; rfl

section Scalars

variable {info : NodeInfo} {text : String}

theorem ofScalar_null (tag : info.tag = CoreTag.null) : ofScalar info text = .null := if_pos tag

theorem ofScalar_bool (tag : info.tag = CoreTag.bool) :
    ofScalar info text = .bool (Text.equalFold text "true") := by
  simp [ofScalar, tag, CoreTag.null, CoreTag.bool]

theorem ofScalar_string (tag : info.tag = CoreTag.str) : ofScalar info text = .string text := by
  simp [ofScalar, tag, CoreTag.null, CoreTag.bool, CoreTag.int, CoreTag.float, CoreTag.str]

theorem ofScalar_integer (tag : info.tag = CoreTag.int) {n : Int}
    (read : IntegerRange.int64.read text = .ok n) : ofScalar info text = .integer n := by
  simp [ofScalar, tag, read, CoreTag.null, CoreTag.bool, CoreTag.int]

theorem ofScalar_not_integer (tag : info.tag = CoreTag.int) {cause : IntegerError}
    (unread : IntegerRange.int64.read text = .error cause) : ofScalar info text = .string text := by
  simp [ofScalar, tag, unread, CoreTag.null, CoreTag.bool, CoreTag.int]

theorem ofScalar_float (tag : info.tag = CoreTag.float) {x : Binary64}
    (read : Binary64.read text = .ok x) : ofScalar info text = .float x := by
  simp [ofScalar, tag, read, CoreTag.null, CoreTag.bool, CoreTag.int, CoreTag.float]

theorem ofScalar_not_float (tag : info.tag = CoreTag.float) {cause : FloatError}
    (unread : Binary64.read text = .error cause) : ofScalar info text = .string text := by
  simp [ofScalar, tag, unread, CoreTag.null, CoreTag.bool, CoreTag.int, CoreTag.float]

end Scalars

theorem ofNode_scalar (info : NodeInfo) (text : String) :
    ofNode (.scalar info text) = ofScalar info text := ofNode_eq_ofContent _

theorem ofNode_sequence (info : NodeInfo) (items : List Node) :
    ofNode (.sequence info items) = .sequence (items.map ofNode) := ofNode_eq_ofContent _

theorem ofNode_of_unmerged {info : NodeInfo} {pairs : List (Node × Node)}
    (unmerged : (Node.mapping info pairs).Unmerged) :
    ofNode (.mapping info pairs) =
      .mapping (OrderedMap.ofList (pairs.map fun pair => (pair.1.text, ofNode pair.2))).toList := by
  have content : (Node.mapping info pairs).content = .mapping info pairs := rfl
  rw [ofNode_eq_ofContent, content, ofContent, unmerged.effectivePairs_eq]
  rfl

end Decoded

end DocRefs
