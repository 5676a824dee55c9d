import DocRefs.Proofs.Node.Reach
import Mathlib.Data.List.Perm.Basic

/-!
# Trees with their pairs in another order

A rearrangement puts the pairs of any of the mappings of a tree into another order, at any depth,
below aliases and in keys too. Nodes keep all but their identities, so what comes out can be another
document. Where the keys of every mapping are different, looking up keys does not depend on the
order (`Rearrangement.findKey?_node`), and walks lead to corresponding nodes
(`Rearrangement.atSegments?_node`).
-/
namespace DocRefs

open scoped List

/-! ### Rearrangements -/

/-- What happens to the mappings and the identities of a tree. A mapping is told from others by its
identity, so each may get an order of its own. -/
structure Rearrangement where
  rename : NodeId → NodeId
  renames : Function.Injective rename
  /-- The order for the pairs of a mapping. -/
  order : NodeInfo → List (Node × Node) → List (Node × Node)
  orders : ∀ info pairs, order info pairs ~ pairs

namespace Rearrangement

variable (r : Rearrangement)

def info (info : NodeInfo) : NodeInfo := { info with id := r.rename info.id }

mutual

/-- The counterpart of a node. -/
def node : Node → Node
  | .scalar info text => .scalar (r.info info) text
  | .sequence info items => .sequence (r.info info) (nodes items)
  | .mapping info pairs => .mapping (r.info info) (r.order info (nodePairs pairs))
  | .document info root => .document (r.info info) (node root)
  | .aliasTo info target => .aliasTo (r.info info) (node target)

def nodes : List Node → List Node
  | [] => []
  | item :: rest => node item :: nodes rest

def nodePairs : List (Node × Node) → List (Node × Node)
  | [] => []
  | (key, value) :: rest => (node key, node value) :: nodePairs rest

end

def pair (pair : Node × Node) : Node × Node := (r.node pair.1, r.node pair.2)

theorem nodes_eq (items : List Node) : r.nodes items = items.map r.node := by
  induction items with
  | nil => rfl
  | cons item rest ih => rw [nodes, ih, List.map_cons]

theorem nodePairs_eq (pairs : List (Node × Node)) : r.nodePairs pairs = pairs.map r.pair := by
  induction pairs with
  | nil => rfl
  | cons pair rest ih => rw [nodePairs, ih, List.map_cons, Rearrangement.pair]

/-! ### What a node keeps -/

@[simp] theorem info_node (n : Node) : (r.node n).info = r.info n.info := by
  cases n <;> rfl

@[simp] theorem id_node (n : Node) : (r.node n).id = r.rename n.id := by
  rw [Node.id, info_node]
  rfl

@[simp] theorem kind_node (n : Node) : (r.node n).kind = n.kind := by
  cases n <;> rfl

@[simp] theorem isScalar_node (n : Node) : (r.node n).isScalar = n.isScalar := by
  simp [Node.isScalar]

@[simp] theorem position_node (n : Node) : (r.node n).position = n.position := by
  rw [Node.position, info_node]
  rfl

@[simp] theorem anchor?_node (n : Node) : (r.node n).anchor? = n.anchor? := by
  rw [Node.anchor?, info_node]
  rfl

@[simp] theorem text_node (n : Node) : (r.node n).text = n.text := by
  cases n with
  | aliasTo info target => exact congrArg (·.getD "") (r.anchor?_node target)
  | _ => rfl

theorem isSame_node (n m : Node) : (r.node n).isSame (r.node m) = n.isSame m := by
  simp [Node.isSame, r.renames.eq_iff]

theorem pairs_node (n : Node) : (r.node n).pairs ~ n.pairs.map r.pair := by
  cases n with
  | mapping info pairs =>
    rw [← nodePairs_eq]
    exact r.orders info (r.nodePairs pairs)
  | _ => exact .refl _

theorem node_unwrapDocument (n : Node) : r.node n.unwrapDocument = (r.node n).unwrapDocument := by
  cases n <;> rfl

theorem node_follow (hops : Nat) (n : Node) : r.node (n.follow hops) = (r.node n).follow hops := by
  induction hops generalizing n with
  | zero => rw [Node.follow_zero, Node.follow_zero]
  | succ hops ih =>
    cases n with
    | aliasTo info target => exact ih target
    | _ => rfl

theorem node_resolveAlias (n : Node) : r.node n.resolveAlias = (r.node n).resolveAlias :=
  r.node_follow aliasHops n

/-! ### Looking up keys -/

theorem findKey?_node {n : Node} (distinct : (n.pairs.map (·.1.text)).Nodup) (key : String) :
    (r.node n).findKey? key = (n.findKey? key).map r.pair := by
  have texts : (r.node n).pairs.map (·.1.text) ~ n.pairs.map (·.1.text) := by
    have same := (r.pairs_node n).map (·.1.text)
    have each : (fun pair => pair.1.text) ∘ r.pair = (·.1.text) :=
      funext fun pair => r.text_node pair.1
    rwa [List.map_map, each] at same
  have distinct_too := texts.nodup_iff.mpr distinct
  -- At most one pair has the key, so it is enough that both have the same pairs.
  refine Option.ext fun found => ?_
  rw [Node.findKey?_eq_some_iff distinct_too, Option.map_eq_some_iff, (r.pairs_node n).mem_iff,
    List.mem_map]
  constructor
  · rintro ⟨⟨pair, member, rfl⟩, same⟩
    have named : pair.1.text = key := (r.text_node pair.1).symm.trans same
    exact ⟨pair, (Node.findKey?_eq_some_iff distinct).mpr ⟨member, named⟩, rfl⟩
  · rintro ⟨pair, there, rfl⟩
    obtain ⟨member, same⟩ := (Node.findKey?_eq_some_iff distinct).mp there
    exact ⟨⟨pair, member, rfl⟩, (r.text_node pair.1).trans same⟩

variable {n : Node} (distinct : n.DistinctKeys)

include distinct

theorem refEntry?_node : Node.refEntry? (r.node n) = n.refEntry?.map r.pair := by
  have entry (m : Node) : m.refEntry? =
      (m.resolveAlias.findKey? referenceKey).map fun pair => (pair.1, pair.2.resolveAlias) := rfl
  have there := (distinct.of_reaches (Node.reaches_resolveAlias n)).here
  -- The entry is that of the node behind an alias, whose keys are different too.
  rw [entry, entry, ← node_resolveAlias, r.findKey?_node there, Option.map_map, Option.map_map]
  congr 1
  funext pair
  simp [Rearrangement.pair, node_resolveAlias]

theorem refText?_node : (r.node n).refText? = n.refText? := by
  rw [Node.refText?, Node.refText?, r.refEntry?_node distinct, Option.map_map]
  congr 1
  funext pair
  exact r.text_node pair.2

theorem isRef_node : (r.node n).isRef = n.isRef := by
  rw [Node.isRef, Node.isRef, r.refEntry?_node distinct, Option.isSome_map]

/-! ### Walks -/

theorem child?_node (segment : String) :
    (r.node n).child? segment = (n.child? segment).map r.node := by
  cases n with
  | mapping info pairs =>
    have found := r.findKey?_node distinct.here segment
    change ((r.node (.mapping info pairs)).findKey? segment).map _ = _
    rw [found, Node.child?, Option.map_map, Option.map_map]
    congr 1
    funext pair
    exact (r.node_resolveAlias pair.2).symm
  | sequence info items =>
    have found : Node.itemAt? (r.nodes items) segment =
        (Node.itemAt? items segment).map r.node := by
      rw [nodes_eq, Node.itemAt?, Node.itemAt?]
      split
      · exact List.getElem?_map ..
      · rfl
    change (Node.itemAt? (r.nodes items) segment).map _ = _
    rw [found, Node.child?, Option.map_map, Option.map_map]
    congr 1
    funext item
    exact (r.node_resolveAlias item).symm
  | _ => rfl

theorem foldlM_child?_node (path : List String) :
    path.foldlM Node.child? (r.node n) = (path.foldlM Node.child? n).map r.node := by
  induction path generalizing n with
  | nil => rfl
  | cons segment rest ih =>
    rw [List.foldlM_cons, List.foldlM_cons, r.child?_node distinct]
    cases step : n.child? segment with
    | none => rfl
    | some next => exact ih (distinct.of_reaches (Node.reaches_child? step))

theorem atSegments?_node (path : List String) :
    (r.node n).atSegments? path = (n.atSegments? path).map r.node := by
  rw [Node.atSegments?, ← node_resolveAlias]
  exact r.foldlM_child?_node (distinct.of_reaches (Node.reaches_resolveAlias n)) path

end Rearrangement

end DocRefs
