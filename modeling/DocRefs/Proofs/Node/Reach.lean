import DocRefs.Fragment
import DocRefs.Proofs.Node.Listing
import Mathlib.Logic.Relation

/-!
# What a tree reaches

From a node one gets to its children, keys included, and from an alias to what it stands for.
Whatever a walk along a path finds is reached from where it began (`reaches_atSegments?`).
-/
namespace DocRefs.Node

/-- One step down, or from an alias to its target. -/
def Edge (a b : Node) : Prop := b ∈ a.children ∨ a.aliasTarget? = some b

/-- Some steps down, through aliases or not. -/
def Reaches : Node → Node → Prop := Relation.ReflTransGen Edge

theorem Reaches.refl (n : Node) : n.Reaches n := Relation.ReflTransGen.refl

theorem Reaches.trans {a b c : Node} (first : a.Reaches b) (second : b.Reaches c) : a.Reaches c :=
  Relation.ReflTransGen.trans first second

theorem reaches_of_mem_children {n child : Node} (member : child ∈ n.children) : n.Reaches child :=
  .single (.inl member)

theorem reaches_value {info : NodeInfo} {pairs : List (Node × Node)} {key value : Node}
    (member : (key, value) ∈ pairs) : (mapping info pairs).Reaches value :=
  reaches_of_mem_children (List.mem_flatMap.mpr ⟨(key, value), member, by simp⟩)

theorem mem_of_reaches {nodes : List Node} (closed : ∀ n ∈ nodes, ∀ m, n.Edge m → m ∈ nodes)
    {n m : Node} (start : n ∈ nodes) (reached : n.Reaches m) : m ∈ nodes := by
  induction reached with
  | refl => exact start
  | tail _ edge ih => exact closed _ ih _ edge

theorem reaches_key {info : NodeInfo} {pairs : List (Node × Node)} {pair : Node × Node}
    (member : pair ∈ pairs) : (mapping info pairs).Reaches pair.1 :=
  reaches_of_mem_children (List.mem_flatMap.mpr ⟨pair, member, by simp⟩)

theorem reaches_item {info : NodeInfo} {items : List Node} {item : Node} (member : item ∈ items) :
    (sequence info items).Reaches item := reaches_of_mem_children member

theorem reaches_root (info : NodeInfo) (root : Node) : (document info root).Reaches root :=
  reaches_of_mem_children (by simp [children])

theorem reaches_of_mem_values {n v : Node} (member : v ∈ n.values) : n.Reaches v := by
  cases n with
  | mapping info pairs =>
    obtain ⟨⟨key, value⟩, listed, rfl⟩ := List.mem_map.mp member
    exact reaches_value listed
  | sequence info items => exact reaches_item member
  | document info root =>
    obtain rfl := List.mem_singleton.mp member
    exact reaches_root info v
  | _ => simp [values] at member

theorem reaches_unwrapDocument (n : Node) : n.Reaches n.unwrapDocument := by
  cases n with
  | document info root => exact reaches_root info root
  | _ => exact .refl _

theorem reaches_follow (hops : Nat) (n : Node) : n.Reaches (follow hops n) := by
  induction hops generalizing n with
  | zero => simpa using Reaches.refl n
  | succ hops ih =>
    cases n with
    | aliasTo info target => exact .head (.inr rfl) (ih target)
    | _ => exact .refl _

theorem reaches_resolveAlias (n : Node) : n.Reaches n.resolveAlias := reaches_follow aliasHops n

theorem mem_of_itemAt? {items : List Node} {segment : String} {item : Node}
    (found : itemAt? items segment = some item) : item ∈ items := by
  unfold itemAt? at found
  split at found
  · exact List.mem_of_getElem? found
  · simp at found

theorem reaches_child? {n found : Node} {segment : String} (step : n.child? segment = some found) :
    n.Reaches found := by
  cases n with
  | mapping info pairs =>
    obtain ⟨⟨key, value⟩, there, rfl⟩ := Option.map_eq_some_iff.mp step
    exact (reaches_value (List.mem_of_find?_eq_some there)).trans (reaches_resolveAlias value)
  | sequence info items =>
    obtain ⟨item, there, rfl⟩ := Option.map_eq_some_iff.mp step
    exact (reaches_item (mem_of_itemAt? there)).trans (reaches_resolveAlias item)
  | _ => simp [child?] at step

theorem reaches_foldlM_child? {n found : Node} {path : List String}
    (walked : path.foldlM child? n = some found) : n.Reaches found := by
  induction path generalizing n with
  | nil =>
    obtain rfl : n = found := by simpa using walked
    exact .refl n
  | cons segment rest ih =>
    rw [List.foldlM_cons] at walked
    obtain ⟨next, step, later⟩ := Option.bind_eq_some_iff.mp walked
    exact (reaches_child? step).trans (ih later)

theorem reaches_atSegments? {root found : Node} {path : List String}
    (walked : root.atSegments? path = some found) : root.Reaches found :=
  (reaches_resolveAlias root).trans (reaches_foldlM_child? walked)

/-! ### Different keys -/

/-- No mapping of the tree has two keys with one text. -/
def DistinctKeys (n : Node) : Prop := ∀ m, n.Reaches m → (m.pairs.map (·.1.text)).Nodup

theorem DistinctKeys.here {n : Node} (distinct : n.DistinctKeys) :
    (n.pairs.map (·.1.text)).Nodup := distinct n (.refl n)

theorem DistinctKeys.of_reaches {n m : Node} (distinct : n.DistinctKeys) (reached : n.Reaches m) :
    m.DistinctKeys := by
  intro k further
  exact distinct k (reached.trans further)

theorem distinctKeys_iff (n : Node) : n.DistinctKeys ↔ (n.pairs.map (·.1.text)).Nodup ∧
    (∀ child ∈ n.children, child.DistinctKeys) ∧
      ∀ target, n.aliasTarget? = some target → target.DistinctKeys := by
  constructor
  · intro distinct
    exact ⟨distinct.here, fun child member => distinct.of_reaches (reaches_of_mem_children member),
      fun target stands => distinct.of_reaches (.single (.inr stands))⟩
  · rintro ⟨here, below, behind⟩ m reached
    rcases Relation.ReflTransGen.cases_head reached with rfl | ⟨next, child | target, further⟩
    · exact here
    · exact below next child m further
    · exact behind next target m further

mutual

/-- Whether the keys are different, found out from the top down. -/
def hasDistinctKeys : Node → Bool
  | mapping _ pairs => decide (pairs.map (·.1.text)).Nodup && distinctInPairs pairs
  | sequence _ items => distinctInItems items
  | document _ root => root.hasDistinctKeys
  | aliasTo _ target => target.hasDistinctKeys
  | scalar _ _ => true

def distinctInPairs : List (Node × Node) → Bool
  | [] => true
  | (key, value) :: rest => key.hasDistinctKeys && value.hasDistinctKeys && distinctInPairs rest

def distinctInItems : List Node → Bool
  | [] => true
  | item :: rest => item.hasDistinctKeys && distinctInItems rest

end

theorem forall_mem_children_mapping {P : Node → Prop} {info : NodeInfo}
    {pairs : List (Node × Node)} :
    (∀ child ∈ (mapping info pairs).children, P child) ↔ ∀ pair ∈ pairs, P pair.1 ∧ P pair.2 := by
  constructor
  · intro each pair member
    exact ⟨each pair.1 (List.mem_flatMap.mpr ⟨pair, member, by simp⟩),
      each pair.2 (List.mem_flatMap.mpr ⟨pair, member, by simp⟩)⟩
  · intro each child listed
    obtain ⟨pair, member, part⟩ := List.mem_flatMap.mp listed
    obtain rfl | rfl : child = pair.1 ∨ child = pair.2 := by simpa using part
    · exact (each pair member).1
    · exact (each pair member).2

mutual

theorem hasDistinctKeys_iff : (n : Node) → (n.hasDistinctKeys = true ↔ n.DistinctKeys)
  | mapping info pairs => by
    rw [hasDistinctKeys, distinctKeys_iff, Bool.and_eq_true, decide_eq_true_eq,
      distinctInPairs_iff pairs, forall_mem_children_mapping]
    simp [aliasTarget?, Node.pairs]
  | sequence info items => by
    rw [hasDistinctKeys, distinctKeys_iff, distinctInItems_iff items]
    simp [children, aliasTarget?, Node.pairs]
  | document info root => by
    rw [hasDistinctKeys, distinctKeys_iff, hasDistinctKeys_iff root]
    simp [children, aliasTarget?, Node.pairs]
  | aliasTo info target => by
    rw [hasDistinctKeys, distinctKeys_iff, hasDistinctKeys_iff target]
    simp [children, aliasTarget?, Node.pairs]
  | scalar info text => by
    rw [hasDistinctKeys, distinctKeys_iff]
    simp [children, aliasTarget?, Node.pairs]

theorem distinctInPairs_iff : (pairs : List (Node × Node)) → (distinctInPairs pairs = true ↔
    ∀ pair ∈ pairs, pair.1.DistinctKeys ∧ pair.2.DistinctKeys)
  | [] => by simp [distinctInPairs]
  | (key, value) :: rest => by
    rw [distinctInPairs, Bool.and_eq_true, Bool.and_eq_true, hasDistinctKeys_iff key,
      hasDistinctKeys_iff value, distinctInPairs_iff rest, List.forall_mem_cons]

theorem distinctInItems_iff : (items : List Node) → (distinctInItems items = true ↔
    ∀ item ∈ items, item.DistinctKeys)
  | [] => by simp [distinctInItems]
  | item :: rest => by
    rw [distinctInItems, Bool.and_eq_true, hasDistinctKeys_iff item, distinctInItems_iff rest,
      List.forall_mem_cons]

end

instance (n : Node) : Decidable n.DistinctKeys := decidable_of_iff _ (hasDistinctKeys_iff n)

end DocRefs.Node
