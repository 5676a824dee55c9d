import DocRefs.Proofs.Digest.Encoded
import DocRefs.Proofs.Digest.Framing
import DocRefs.Proofs.Index.Rearranged
import DocRefs.Proofs.Resolve.Coherent

/-!
# Resolution in rearranged documents

Main result: `resolution_of_rearranged`. In a document and in one with other orders of its pairs,
the references lead to counterparts, with the same pointers and errors. One hop has the same outcome
in both (`Index.hop_rearranged`), and it stays in the document, as no other one is there; so walks
go side by side (`Index.locateWithin_rearranged`). Counterparts have one digest, since the engine
sorts the pairs of a mapping (`Engine.digestWithin_node`).
-/
namespace DocRefs

open scoped List

/-! ### Digests -/

namespace Engine

variable (r : Rearrangement) (seed : List UInt8)

mutual

theorem digestWithin_node : (n : Node) → (hops : Nat) →
    digestWithin seed hops (r.node n) = digestWithin seed hops n
  | .aliasTo info target, hops + 1 => by
    rw [Rearrangement.node, digestWithin, digestWithin]
    exact digestWithin_node target hops
  | .aliasTo info target, 0 => by rw [Rearrangement.node, digestWithin, digestWithin]
  | .scalar info text, hops => by
    rw [Rearrangement.node, digestWithin, digestWithin]
    rfl
  | .document info root, hops => by
    rw [Rearrangement.node, digestWithin, digestWithin, digestWithin_node root aliasHops]
  | .sequence info items, hops => by
    rw [Rearrangement.node, digestWithin, digestWithin, digestsWithin_nodes items]
  | .mapping info pairs, hops => by
    -- The pairs are sorted before they are digested, so their order is lost.
    have order := (r.orders info (r.nodePairs pairs)).map (Prod.map (digestOf seed) (digestOf seed))
    rw [← pairsWithin_eq, ← pairsWithin_eq, pairsWithin_nodePairs pairs] at order
    rw [Rearrangement.node, digestWithin, digestWithin, pairsBytes_of_perm order]

theorem digestsWithin_nodes : (items : List Node) →
    digestsWithin seed (r.nodes items) = digestsWithin seed items
  | [] => rfl
  | item :: rest => by
    rw [Rearrangement.nodes, digestsWithin, digestsWithin, digestWithin_node item aliasHops,
      digestsWithin_nodes rest]

theorem pairsWithin_nodePairs : (pairs : List (Node × Node)) →
    pairsWithin seed (r.nodePairs pairs) = pairsWithin seed pairs
  | [] => rfl
  | (key, value) :: rest => by
    rw [Rearrangement.nodePairs, pairsWithin, pairsWithin, digestWithin_node key aliasHops,
      digestWithin_node value aliasHops, pairsWithin_nodePairs rest]

end

theorem hashNode_node (seed : Option (List UInt8)) (n : Node) :
    hashNode seed (r.node n) = hashNode seed n := by
  rw [hashNode_eq_digestOf, hashNode_eq_digestOf, digestOf, digestOf, digestWithin_node]

end Engine

/-! ### Findings -/

namespace Rearrangement

variable (r : Rearrangement)

def answer (a : Answer) : Answer := { a with reference := r.reference a.reference }

/-- The counterpart of a location, in the index of the other document. -/
def located (ix : Index) (l : Located) : Located := { l with node := r.node l.node, index := ix }

theorem containsNode_finding (f : Finding) (n : Node) :
    (r.finding f).containsNode (r.node n) = f.containsNode n := by
  simp [Finding.containsNode, finding, reference, r.isSame_node, Function.comp_def]

theorem containsDefinition_finding (f : Finding) (definition : String) :
    (r.finding f).containsDefinition definition = f.containsDefinition definition := by
  simp [Finding.containsDefinition, finding, reference, Function.comp_def]

theorem path_finding (f : Finding) : (r.finding f).path = f.path := by
  rw [Finding.path, finding, List.map_map]
  rfl

end Rearrangement

namespace Index

variable {config : Config} {root : Node} (r : Rearrangement) (distinct : root.DistinctKeys)

include distinct

/-- The first finding with a property is the counterpart of the first that has it there. -/
theorem find?_findings_rearranged {p q : Finding → Bool} (same : ∀ f, p (r.finding f) = q f) :
    (ofDocument config (r.node root)).findings.find? p =
      ((ofDocument config root).findings.find? q).map r.finding := by
  have findings : (ofDocument config (r.node root)).findings =
      (ofDocument config root).findings.map r.finding := findings_rearranged r distinct
  have alike : p ∘ r.finding = q := funext same
  rw [findings, List.find?_map, alike]

theorem findingFor?_rearranged {n : Node} (below : n.DistinctKeys) :
    (ofDocument config (r.node root)).findingFor? (r.node n) =
      ((ofDocument config root).findingFor? n).map r.finding := by
  have by_node : (ofDocument config (r.node root)).findings.find? (·.containsNode (r.node n)) =
      ((ofDocument config root).findings.find? (·.containsNode n)).map r.finding :=
    find?_findings_rearranged r distinct fun f => r.containsNode_finding f n
  -- What a text names does not depend on the order either.
  have by_name (definition : String) :
      (ofDocument config (r.node root)).findings.find? (·.containsDefinition definition) =
        ((ofDocument config root).findings.find? (·.containsDefinition definition)).map r.finding :=
    find?_findings_rearranged r distinct fun f => r.containsDefinition_finding f definition
  have absolute : (ofDocument config (r.node root)).absolute =
      (ofDocument config root).absolute := rfl
  rw [findingFor?, findingFor?, Option.map_or, by_node, r.refText?_node below, absolute]
  cases n.refText? with
  | none => rfl
  | some text => simp only [Option.bind_eq_bind, Option.bind_some, by_name]

/-! ### Hops -/

theorem search?_rearranged (pointer : String) : (ofDocument config (r.node root)).search? pointer =
    ((ofDocument config root).search? pointer).map r.node := by
  have content := distinct.of_reaches (Node.reaches_unwrapDocument root)
  have unwrapped : (ofDocument config (r.node root)).root.unwrapDocument =
      r.node root.unwrapDocument := (r.node_unwrapDocument root).symm
  unfold search?
  dsimp only
  rw [unwrapped, r.atSegments?_node content]
  split <;> rfl

theorem answer?_rearranged (registry : Registry) (pointer : String) (context : Context) :
    (ofDocument config (r.node root)).answer? registry pointer context =
      ((ofDocument config root).answer? registry pointer context).map r.answer := by
  have same : (ofDocument config (r.node root)).isLocal (Location.splitPointer pointer).1 =
      (ofDocument config root).isLocal (Location.splitPointer pointer).1 := rfl
  cases inside : (ofDocument config root).isLocal (Location.splitPointer pointer).1 with
  | true =>
    have mapped : (ofDocument config (r.node root)).mapped.get? pointer =
        ((ofDocument config root).mapped.get? pointer).map r.reference :=
      get?_mapped_rearranged r distinct pointer
    have places : (ofDocument config (r.node root)).places.get? (Location.splitPointer pointer).2 =
        ((ofDocument config root).places.get? (Location.splitPointer pointer).2).map r.reference :=
      r.get?_places distinct _
    rw [answer?_of_local registry context inside, answer?_of_local registry context
      (same.trans inside), listed?_ofDocument inside, listed?_ofDocument (same.trans inside),
      mapped, places, ← Option.map_or, Option.map_map, Option.map_map]
    rfl
  | false =>
    -- The index is in no registry, so there is nowhere else to look.
    rw [answer?_of_not_local registry context inside, answer?_of_not_local registry context
      (same.trans inside)]
    rfl

/-- What is answered is in the document. -/
theorem own_of_answer? {registry : Registry} {pointer : String} {context : Context}
    {answer : Answer}
    (known : (ofDocument config root).answer? registry pointer context = some answer) :
    answer.owner = none ∧ answer.reference.node.DistinctKeys := by
  rcases answer?_eq_some known with ⟨inside, own, _⟩ | ⟨outside, _⟩
  · exact ⟨own, distinct.of_reaches (reaches_of_answer? inside known)⟩
  · rw [answer?_of_not_local registry context outside] at known
    simp [findElsewhere?, ofDocument, build] at known

theorem arrive_rearranged {answer : Answer} (own : answer.owner = none)
    (below : answer.reference.node.DistinctKeys) (pointer : String) (written : Node) :
    (ofDocument config (r.node root)).arrive (r.answer answer) pointer (r.node written) =
      r.located (ofDocument config (r.node root))
        ((ofDocument config root).arrive answer pointer written) := by
  have same_own : (r.answer answer).owner = none := own
  have target : (r.answer answer).reference.node = r.node answer.reference.node := rfl
  unfold arrive
  simp only [own, same_own, target, Option.getD_none, r.isRef_node below,
    findingFor?_rearranged r distinct below, r.position_node]
  cases answer.reference.node.isRef with
  | false => rfl
  | true =>
    simp only [if_true]
    cases (ofDocument config root).findingFor? answer.reference.node with
    | none => rfl
    | some finding =>
      simp only [Option.map_some, r.path_finding]
      rfl

omit distinct in
theorem node_arrive (ix : Index) (answer : Answer) (pointer : String) (written : Node) :
    (ix.arrive answer pointer written).node = answer.reference.node := by
  unfold arrive
  dsimp only
  split <;> rfl

omit distinct in
theorem index_arrive (ix : Index) (answer : Answer) (pointer : String) (written : Node) :
    (ix.arrive answer pointer written).index = answer.owner.getD ix := by
  unfold arrive
  dsimp only
  split <;> rfl

theorem hop_rearranged (registry : Registry) (context : Context) (written : Node) :
    (ofDocument config (r.node root)).hop registry context (r.node written) =
      ((ofDocument config root).hop registry context written).map
        (Prod.map (r.located (ofDocument config (r.node root))) id) := by
  have pointer : (ofDocument config (r.node root)).pointerIn context =
      (ofDocument config root).pointerIn context := rfl
  unfold hop
  rw [r.text_node, r.position_node]
  split
  · rfl
  · dsimp only
    rw [pointer, answer?_rearranged r distinct, search?_rearranged r distinct]
    cases known : (ofDocument config root).answer? registry
        ((ofDocument config root).pointerIn context written.text) context with
    | some answer =>
      obtain ⟨own, below⟩ := own_of_answer? distinct known
      have goes_on : (r.located (ofDocument config (r.node root)) ((ofDocument config root).arrive
          answer ((ofDocument config root).pointerIn context written.text) written)).node.isRef =
            ((ofDocument config root).arrive answer
              ((ofDocument config root).pointerIn context written.text) written).node.isRef :=
        r.isRef_node (by rwa [node_arrive])
      dsimp only [Option.map_some]
      rw [arrive_rearranged r distinct own below, goes_on]
      rfl
    | none =>
      cases (ofDocument config root).search?
        ((ofDocument config root).pointerIn context written.text) <;> rfl

/-- A hop does not leave the document. -/
theorem own_of_hop {registry : Registry} {context : Context} {written : Node} {l : Located}
    {onward : Bool}
    (goes : (ofDocument config root).hop registry context written = .ok (l, onward)) :
    l.index = ofDocument config root ∧ l.node.DistinctKeys := by
  unfold hop at goes
  split at goes
  · simp at goes
  · dsimp only at goes
    split at goes
    next answer known =>
      obtain ⟨own, below⟩ := own_of_answer? distinct known
      obtain ⟨rfl, _⟩ := Prod.mk.inj (Except.ok.inj goes)
      rw [index_arrive, node_arrive, own]
      exact ⟨rfl, below⟩
    next unknown =>
      split at goes
      next found there =>
        obtain ⟨rfl, _⟩ := Prod.mk.inj (Except.ok.inj goes)
        have reached : root.Reaches found := reaches_of_search? there
        exact ⟨rfl, distinct.of_reaches reached⟩
      · simp at goes

/-! ### Walks -/

theorem locateWithin_rearranged (registry : Registry) (hops : Nat) {n : Node}
    (below : n.DistinctKeys) (context : Context) :
    locateWithin registry hops (r.node n) (ofDocument config (r.node root)) context =
      (locateWithin registry hops n (ofDocument config root) context).map
        (Option.map (r.located (ofDocument config (r.node root)))) := by
  induction hops generalizing n context with
  | zero =>
    unfold locateWithin
    rw [r.isRef_node below]
    split <;> rfl
  | succ hops ih =>
    unfold locateWithin
    rw [r.refEntry?_node below]
    cases n.refEntry? with
    | none => rfl
    | some entry =>
      have alike : (ofDocument config (r.node root)).hop registry context (r.node entry.2) = _ :=
        hop_rearranged r distinct registry context entry.2
      dsimp only [Option.map_some, Rearrangement.pair]
      rw [alike]
      cases goes : (ofDocument config root).hop registry context entry.2 with
      | error e => rfl
      | ok outcome =>
        obtain ⟨l, onward⟩ := outcome
        obtain ⟨own, there⟩ := own_of_hop distinct goes
        cases onward with
        | false => rfl
        | true =>
          -- The walk goes on in the same two indexes.
          have further := ih there l.context
          rw [← own] at further
          exact further

end Index

/-- A document without two equal keys in a mapping is indexed alone, and so is the one that comes
out when the pairs of any of its mappings change places and its nodes get other identities. The
findings go through the same definitions in the same order, the same pointers are mapped, and the
same texts are unresolved. Every node of the document and its counterpart lead to counterparts, with
the same pointer, context and report of a cycle, or fail with the same error; and counterparts have
the same digest. -/
theorem resolution_of_rearranged (config : Config) (root : Node) (distinct : root.DistinctKeys)
    (r : Rearrangement) :
    let ix := Index.ofDocument config root
    let other := Index.ofDocument config (r.node root)
    (other.findings.map fun f => f.journey.map (·.definition)) =
      (ix.findings.map fun f => f.journey.map (·.definition)) ∧
    other.mapped.keys ~ ix.mapped.keys ∧
    other.unresolved.map (·.raw) ~ ix.unresolved.map (·.raw) ∧
    (∀ n, root.Reaches n → ∀ registry context,
      locate registry (r.node n) other context =
        (locate registry n ix context).map (Option.map (r.located other))) ∧
    ∀ seed n, Engine.hashNode seed (r.node n) = Engine.hashNode seed n := by
  intro ix other
  refine ⟨?_, ?_, ?_, ?_, Engine.hashNode_node r⟩
  · have findings : other.findings = ix.findings.map r.finding :=
      Index.findings_rearranged r distinct
    rw [findings, List.map_map]
    exact List.map_congr_left fun f _ => Index.definitions_finding r f
  · apply (List.perm_ext_iff_of_nodup other.mapped.distinct ix.mapped.distinct).mpr
    intro pointer
    have mapped : other.mapped.get? pointer = (ix.mapped.get? pointer).map r.reference :=
      Index.get?_mapped_rearranged r distinct pointer
    change pointer ∈ other.mapped.keys ↔ pointer ∈ ix.mapped.keys
    rw [Table.mem_keys_iff, Table.mem_keys_iff, mapped, Option.isSome_map]
  · have unresolved : other.unresolved ~ ix.unresolved.map r.reference :=
      Index.unresolved_rearranged r distinct
    have raws := unresolved.map (·.raw)
    rwa [List.map_map] at raws
  · intro n reached registry context
    exact Index.locateWithin_rearranged r distinct registry maxHops (distinct.of_reaches reached)
      context

/-- Two references that lead around, one that leads through an alias, and one that leads nowhere. -/
def jumbled : Node := Build.runNew do
  let shared ← Build.object [("name", Build.string "one"), ("size", Build.string "2")]
  Build.object [
    ("first", Build.reference "#/second"),
    ("shared", pure shared),
    ("second", Build.reference "#/first"),
    ("copy", Build.aliasTo shared),
    ("far", Build.reference "#/copy"),
    ("lost", Build.reference "#/none")]

/-- All pairs the other way round, in another document. -/
def backwards : Rearrangement where
  rename id := ⟨id.number + 100⟩
  renames a b same := by
    cases a
    cases b
    simpa using same
  order _ pairs := pairs.reverse
  orders _ pairs := pairs.reverse_perm

theorem resolution_of_rearranged_backwards :
    let ix := Index.ofDocument {} jumbled
    let other := Index.ofDocument {} (backwards.node jumbled)
    let far := (jumbled.child? "far").getD default
    jumbled.DistinctKeys ∧ jumbled.Reaches far ∧
      (backwards.node jumbled).pairs.map (·.1.text) =
        ["lost", "far", "copy", "second", "shared", "first"] ∧
      (ix.findings.map fun f => f.journey.map (·.definition)) =
        [["#/first", "#/second", "#/first"]] ∧
      (other.findings.map fun f => f.journey.map (·.definition)) =
        [["#/first", "#/second", "#/first"]] ∧
      other.mapped.keys ~ ["#/first", "#/second", "#/copy"] ∧
      other.unresolved.map (·.raw) ~ ["#/none"] ∧
      whereabouts? (locate .alone far ix {}) = some ("#/copy", none) ∧
      locate .alone (backwards.node far) other {} =
        (locate .alone far ix {}).map (Option.map (backwards.located other)) ∧
      Engine.hashNode none (backwards.node jumbled) = Engine.hashNode none jumbled := by
  intro ix other far
  have distinct : jumbled.DistinctKeys := by decide +kernel
  have step : jumbled.child? "far" = some far := by rfl
  have reached : jumbled.Reaches far := Node.reaches_child? step
  have journeys : (ix.findings.map fun f => f.journey.map (·.definition)) =
      [["#/first", "#/second", "#/first"]] := by decide +kernel
  have pointers : ix.mapped.keys ~ ["#/first", "#/second", "#/copy"] := by decide +kernel
  have lost : ix.unresolved.map (·.raw) = ["#/none"] := by decide +kernel
  obtain ⟨findings, mapped, unresolved, walks, digests⟩ :=
    resolution_of_rearranged {} jumbled distinct backwards
  exact ⟨distinct, reached, by decide +kernel, journeys, findings.trans journeys,
    mapped.trans pointers, unresolved.trans (.of_eq lost), by decide +kernel,
    walks far reached .alone {}, digests none jumbled⟩

end DocRefs
