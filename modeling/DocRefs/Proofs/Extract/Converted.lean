import DocRefs.Node.OfValue
import DocRefs.Proofs.Extract.Decoded
import DocRefs.Proofs.Node.Described
import DocRefs.Proofs.Number.Integer

/-!
# Values that come back

A value is made into a node and the node is decoded. The tag of a converted scalar says what the
value is and keys keep their texts, so what comes back is the value, however its texts look. Main
result: `Yaml.Value.Plain.decoded`.
-/
namespace DocRefs

namespace Yaml.Value

/-- A mapping with string keys. -/
def keyed (entries : List (String × Value)) : Value :=
  .mapping (entries.map fun entry => (.string entry.1, entry.2))

/-- Null, booleans, integers of 64 bits and strings, and what is made of them: sequences, and
mappings with distinct string keys that do not merge. -/
inductive Plain : Value → Prop where
  | null : Plain .null
  | bool (b : Bool) : Plain (.bool b)
  | integer {n : Int} (fits : IntegerRange.int64.Contains n) : Plain (.integer n)
  | string (text : String) : Plain (.string text)
  | sequence {items : List Value} (each : ∀ item ∈ items, Plain item) : Plain (.sequence items)
  | mapping {entries : List (String × Value)} (distinct : (entries.map Prod.fst).Nodup)
    (unmerged : mergeKey ∉ entries.map Prod.fst)
    (each : ∀ entry ∈ entries, Plain entry.2) : Plain (keyed entries)

/-- The decoded value says what the YAML value says, with items and keys in the same order. -/
inductive DecodesTo : Value → Decoded → Prop where
  | null : DecodesTo .null .null
  | bool (b : Bool) : DecodesTo (.bool b) (.bool b)
  | integer (n : Int) : DecodesTo (.integer n) (.integer n)
  | string (text : String) : DecodesTo (.string text) (.string text)
  | sequence {items : List Value} {parts : List Decoded}
    (each : List.Forall₂ DecodesTo items parts) : DecodesTo (.sequence items) (.sequence parts)
  | mapping {entries : List (String × Value)} {parts : List (String × Decoded)}
    (keys : parts.map Prod.fst = entries.map Prod.fst)
    (values : List.Forall₂ DecodesTo (entries.map Prod.snd) (parts.map Prod.snd)) :
    DecodesTo (keyed entries) (.mapping parts)

/-- The JSON value says what the YAML value says. The fields of an object are those of the mapping,
in the order of their names. -/
inductive RendersTo : Value → Json → Prop where
  | null : RendersTo .null .null
  | bool (b : Bool) : RendersTo (.bool b) (.bool b)
  | integer (n : Int) : RendersTo (.integer n) (.integer n)
  | string (text : String) : RendersTo (.string text) (.string text)
  | sequence {items : List Value} {parts : List Json}
    (each : List.Forall₂ RendersTo items parts) : RendersTo (.sequence items) (.array parts)
  | mapping {entries : List (String × Value)} {fields sorted : List (String × Json)}
    (keys : fields.map Prod.fst = entries.map Prod.fst)
    (values : List.Forall₂ RendersTo (entries.map Prod.snd) (fields.map Prod.snd))
    (perm : sorted.Perm fields) (ordered : sorted.Pairwise (·.1 < ·.1)) :
    RendersTo (keyed entries) (.object sorted)

/-- A decoded value says what the YAML value says, and so does its JSON. -/
structure Becomes (v : Value) (d : Decoded) : Prop where
  decoded : v.DecodesTo d
  rendered : v.RendersTo d.toJson

end Yaml.Value

open Yaml (Value)
open Yaml.Value (Plain Becomes)
open TreeBuilder (run_bind_of_run exists_run_mapM)

namespace Decoded

theorem itemsToJson_eq (items : List Decoded) : itemsToJson items = items.map toJson := by
  induction items with
  | nil => rfl
  | cons item rest ih => rw [itemsToJson, ih, List.map_cons]

theorem entriesToJson_eq (entries : List (String × Decoded)) :
    entriesToJson entries = entries.map fun entry => (entry.1, toJson entry.2) := by
  induction entries with
  | nil => rfl
  | cons entry rest ih => rw [entriesToJson, ih, List.map_cons]

end Decoded

/-! ### What is made of parts -/

namespace Yaml.Value

theorem becomes_sequence {items : List Value} {parts : List Decoded}
    (each : List.Forall₂ Becomes items parts) : Becomes (.sequence items) (.sequence parts) := by
  refine ⟨.sequence (each.imp fun _ _ becomes => becomes.decoded), ?_⟩
  rw [Decoded.toJson, Decoded.itemsToJson_eq]
  apply RendersTo.sequence
  exact List.forall₂_map_right_iff.mpr (each.imp fun _ _ becomes => becomes.rendered)

theorem becomes_mapping {entries : List (String × Value)} {parts : List (String × Decoded)}
    (distinct : (entries.map Prod.fst).Nodup)
    (keys : parts.map Prod.fst = entries.map Prod.fst)
    (values : List.Forall₂ Becomes (entries.map Prod.snd) (parts.map Prod.snd)) :
    Becomes (keyed entries) (.mapping parts) := by
  refine ⟨.mapping keys (values.imp fun _ _ becomes => becomes.decoded), ?_⟩
  have names : (Decoded.entriesToJson parts).map Prod.fst = entries.map Prod.fst := by
    rw [Decoded.entriesToJson_eq, List.map_map, ← keys]
    rfl
  have distinct_names : ((Decoded.entriesToJson parts).map Prod.fst).Nodup := names ▸ distinct
  obtain ⟨sorted, object, perm, ordered⟩ := Json.exists_ofFields distinct_names
  rw [Decoded.toJson, object]
  refine .mapping names ?_ perm ordered
  have rendered : (Decoded.entriesToJson parts).map Prod.snd =
      (parts.map Prod.snd).map Decoded.toJson := by
    rw [Decoded.entriesToJson_eq, List.map_map, List.map_map]
    rfl
  rw [rendered]
  exact List.forall₂_map_right_iff.mpr (values.imp fun _ _ becomes => becomes.rendered)

end Yaml.Value

/-! ### What is made of a value -/

namespace Node

theorem ofValues_eq (items : List Value) : ofValues items = items.mapM ofValue := by
  induction items with
  | nil => rfl
  | cons item rest ih => rw [ofValues, ih, List.mapM_cons]

theorem ofEntries_eq (entries : List (Value × Value)) :
    ofEntries entries = entries.mapM fun entry =>
      do return (← ofValue entry.1, ← ofValue entry.2) := by
  induction entries with
  | nil => rfl
  | cons entry rest ih => simp [ofEntries, ih, List.mapM_cons]

end Node

/-- A mapping without a key that merges is made of its pairs as they are. -/
theorem Build.run_mapping {pairs : List (Node × Node)}
    (unmerged : ∀ pair ∈ pairs, pair.1.text ≠ mergeKey) (free : NodeId) :
    (Build.mapping pairs).run free =
      (.mapping { id := free, tag := CoreTag.map } pairs, ⟨free.number + 1⟩) := by
  have kept : (pairs.mapM fun pair => do return (← mappingKey pair.1, pair.2) :
      Build (List (Node × Node))) = pure pairs := by
    induction pairs with
    | nil => rfl
    | cons pair rest ih =>
      obtain ⟨here, later⟩ := List.forall_mem_cons.mp unmerged
      have same : mappingKey pair.1 = pure pair.1 := if_neg fun word => here word.2.1
      rw [List.mapM_cons, ih later, same]
      rfl
  exact run_bind_of_run (congrArg (StateT.run · free) kept) _

/-- Wherever its node is made, the value is what is decoded of it. -/
def Returns (v : Value) : Prop :=
  ∀ free, ∃ n later, (Node.ofValue v).run free = (n, later) ∧ v.Becomes (Decoded.ofNode n)

theorem returns_tagged {v : Value} {text tag : String}
    (made : Node.ofValue v = Build.tagged text tag)
    (becomes : ∀ info : NodeInfo, info.tag = tag → v.Becomes (Decoded.ofScalar info text)) :
    Returns v := by
  intro free
  refine ⟨.scalar { id := free, tag } text, ⟨free.number + 1⟩, by rw [made]; rfl, ?_⟩
  rw [Decoded.ofNode_scalar]
  exact becomes _ rfl

theorem returns_integer {n : Int} (fits : IntegerRange.int64.Contains n) :
    Returns (.integer n) := by
  refine returns_tagged rfl fun info tag => ?_
  rw [Decoded.ofScalar_integer tag (IntegerRange.read_toString (by decide) fits)]
  exact ⟨.integer n, .integer n⟩

theorem returns_sequence {items : List Value} (each : ∀ item ∈ items, Returns item) :
    Returns (.sequence items) := by
  intro free
  obtain ⟨parts, later, run, all⟩ := exists_run_mapM each free
  refine ⟨.sequence { id := later, tag := CoreTag.seq } parts, ⟨later.number + 1⟩, ?_, ?_⟩
  · rw [Node.ofValue, Node.ofValues_eq, run_bind_of_run run]
    rfl
  · rw [Decoded.ofNode_sequence]
    exact Value.becomes_sequence (List.forall₂_map_right_iff.mpr all)

/-- The pair in which an entry is kept. -/
structure KeptIn (entry : String × Value) (pair : Node × Node) : Prop where
  key : pair.1.text = entry.1
  unmerged : pair.1.isMergeKey = false
  value : entry.2.Becomes (Decoded.ofNode pair.2)

theorem exists_run_entry {entry : String × Value} (returns : Returns entry.2) (free : NodeId) :
    ∃ pair later, (do return (← Node.ofValue (.string entry.1), ← Node.ofValue entry.2) :
      Build (Node × Node)).run free = (pair, later) ∧ KeptIn entry pair := by
  obtain ⟨n, later, run, becomes⟩ := returns ⟨free.number + 1⟩
  refine ⟨(.scalar { id := free, tag := CoreTag.str } entry.1, n), later, ?_, rfl, rfl, becomes⟩
  have key : (Node.ofValue (.string entry.1)).run free =
    (.scalar { id := free, tag := CoreTag.str } entry.1, ⟨free.number + 1⟩) := rfl
  rw [run_bind_of_run key, run_bind_of_run run]
  rfl

theorem texts_of_kept {entries : List (String × Value)} {pairs : List (Node × Node)}
    (all : List.Forall₂ KeptIn entries pairs) :
    (pairs.map fun pair => pair.1.text) = entries.map Prod.fst := by
  induction all with
  | nil => rfl
  | cons kept _ ih => rw [List.map_cons, List.map_cons, kept.key, ih]

theorem unmerged_of_kept {entries : List (String × Value)} {pairs : List (Node × Node)}
    (all : List.Forall₂ KeptIn entries pairs) : ∀ pair ∈ pairs, pair.1.isMergeKey = false := by
  induction all with
  | nil => simp
  | cons kept _ ih => exact List.forall_mem_cons.mpr ⟨kept.unmerged, ih⟩

theorem returns_mapping {entries : List (String × Value)} (distinct : (entries.map Prod.fst).Nodup)
    (unmerged : mergeKey ∉ entries.map Prod.fst) (each : ∀ entry ∈ entries, Returns entry.2) :
    Returns (.keyed entries) := by
  intro free
  obtain ⟨pairs, later, run, all⟩ :=
    exists_run_mapM (fun entry member => exists_run_entry (each entry member)) free
  have texts := texts_of_kept all
  have written : ∀ pair ∈ pairs, pair.1.text ≠ mergeKey := by
    intro pair member word
    exact unmerged (texts ▸ List.mem_map.mpr ⟨pair, member, word⟩)
  refine ⟨.mapping { id := later, tag := CoreTag.map } pairs, ⟨later.number + 1⟩, ?_, ?_⟩
  · rw [Value.keyed, Node.ofValue, Node.ofEntries_eq, List.mapM_map]
    exact (run_bind_of_run run _).trans (Build.run_mapping written later)
  · let parts := pairs.map fun pair => (pair.1.text, Decoded.ofNode pair.2)
    have keys : parts.map Prod.fst = entries.map Prod.fst := by
      rw [List.map_map, ← texts]
      rfl
    have kept : (OrderedMap.ofList parts).toList = parts := by
      apply OrderedMap.toList_ofList
      rw [DistinctKeys, keys]
      exact distinct.imp fun differ => beq_false_of_ne differ
    rw [Decoded.ofNode_of_unmerged (unmerged_of_kept all), kept]
    apply Value.becomes_mapping distinct keys
    rw [List.map_map]
    exact List.forall₂_map_left_iff.mpr
      (List.forall₂_map_right_iff.mpr (all.imp fun _ _ kept => kept.value))

theorem returns_of_plain {v : Value} (plain : v.Plain) : Returns v := by
  induction plain with
  | null =>
    refine returns_tagged rfl fun info tag => ?_
    rw [Decoded.ofScalar_null tag]
    exact ⟨.null, .null⟩
  | bool b =>
    refine returns_tagged rfl fun info tag => ?_
    have read : Text.equalFold (if b then "true" else "false") "true" = b := by
      cases b <;> decide +kernel
    rw [Decoded.ofScalar_bool tag, read]
    exact ⟨.bool b, .bool b⟩
  | integer fits => exact returns_integer fits
  | string text =>
    refine returns_tagged rfl fun info tag => ?_
    rw [Decoded.ofScalar_string tag]
    exact ⟨.string text, .string text⟩
  | sequence each ih => exact returns_sequence ih
  | mapping distinct unmerged each ih => exact returns_mapping distinct unmerged ih

/-- A plain value that is made into a node is decoded to what it says, and so says its JSON. -/
theorem decoded_of_plain {v : Value} (plain : v.Plain) (free : NodeId) :
    v.DecodesTo (Decoded.ofNode ((Node.ofValue v).run free).1) ∧
      v.RendersTo (Decoded.ofNode ((Node.ofValue v).run free).1).toJson := by
  obtain ⟨n, later, run, becomes⟩ := returns_of_plain plain free
  rw [run]
  exact ⟨becomes.decoded, becomes.rendered⟩

/-- Texts that look like something else, as keys and as values. -/
def Yaml.Value.lookalikes : Value :=
  .keyed [("null", .string "12"), ("", .keyed [("true", .string ""), ("12", .integer (-7))]),
    ("12", .sequence [.string "null", .string "<<", .string "~", .null, .bool false])]

/-- The texts are distinct as keys and come back as texts. -/
theorem decoded_of_plain_lookalikes :
    Value.lookalikes.Plain ∧
      Value.lookalikes.DecodesTo (Decoded.ofNode ((Node.ofValue .lookalikes).run ⟨1⟩).1) ∧
      Value.lookalikes.RendersTo (Decoded.ofNode ((Node.ofValue .lookalikes).run ⟨1⟩).1).toJson := by
  have inner : (Value.keyed [("true", .string ""), ("12", .integer (-7))]).Plain := by
    refine .mapping (by decide) (by decide) ?_
    simp only [List.forall_mem_cons, List.not_mem_nil, false_imp_iff, implies_true, and_true]
    exact ⟨.string "", .integer (by decide)⟩
  have items :
      (Value.sequence [.string "null", .string "<<", .string "~", .null, .bool false]).Plain := by
    refine .sequence ?_
    simp only [List.forall_mem_cons, List.not_mem_nil, false_imp_iff, implies_true, and_true]
    exact ⟨.string _, .string _, .string _, .null, .bool false⟩
  have plain : Value.lookalikes.Plain := by
    refine .mapping (by decide) (by decide) ?_
    simp only [List.forall_mem_cons, List.not_mem_nil, false_imp_iff, implies_true, and_true]
    exact ⟨.string "12", inner, items⟩
  exact ⟨plain, decoded_of_plain plain ⟨1⟩⟩

end DocRefs
