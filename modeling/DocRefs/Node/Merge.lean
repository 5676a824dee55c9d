import DocRefs.Node.Basic

/-!
# Merge keys

A merge key brings the pairs of other mappings into its own. Keys that are written in the mapping
win over those brought in, and of several that are brought in the first wins; a source may have
merge keys itself. What comes in stands where the merge key stood.
-/
namespace DocRefs.Node

/-- The texts of the keys that are written in a mapping. -/
def ownKeys (pairs : List (Node × Node)) : List String :=
  (pairs.filter fun (key, _) => !key.isMergeKey).map fun (key, _) => key.text

/-- The pairs whose keys are not taken yet, the first of each key. -/
def newPairs (taken : List String) : List (Node × Node) → List (Node × Node)
  | [] => []
  | (key, value) :: rest =>
    if taken.contains key.text then newPairs taken rest
    else (key, value) :: newPairs (key.text :: taken) rest

mutual

/-- The pairs of a mapping, which may stand behind so many aliases, with merge keys replaced. -/
def mappingPairs : Nat → Node → List (Node × Node)
  | hops + 1, .aliasTo _ target => mappingPairs hops target
  | _, .mapping _ pairs => splice (ownKeys pairs) pairs
  | _, _ => []

/-- The pairs of the mappings that are the value of a merge key, one or a sequence of them. -/
def sourcePairs : Nat → Node → List (Node × Node)
  | hops + 1, .aliasTo _ target => sourcePairs hops target
  | _, .mapping _ pairs => splice (ownKeys pairs) pairs
  | _, .sequence _ items => itemPairs items
  | _, _ => []

def itemPairs : List Node → List (Node × Node)
  | [] => []
  | item :: rest => mappingPairs aliasHops item ++ itemPairs rest

/-- Replaces merge keys by the pairs that they bring in, when some keys are taken already. -/
def splice (taken : List String) : List (Node × Node) → List (Node × Node)
  | [] => []
  | (key, value) :: rest =>
    if key.isMergeKey then
      -- What is brought in here is taken for the merge keys further down.
      let brought := newPairs taken (sourcePairs aliasHops value)
      brought ++ splice (brought.map (fun (key, _) => key.text) ++ taken) rest
    else (key, value) :: splice taken rest

end

/-- The pairs of a mapping with merge keys replaced. -/
def effectivePairs (n : Node) : List (Node × Node) := mappingPairs 0 n

theorem mem_of_mem_newPairs {taken : List String} {pair : Node × Node} :
    {pairs : List (Node × Node)} → pair ∈ newPairs taken pairs → pair ∈ pairs
  | [], member => member
  | (key, value) :: rest, member => by
    unfold newPairs at member
    split at member
    · exact List.mem_cons_of_mem _ (mem_of_mem_newPairs member)
    · rcases List.mem_cons.1 member with rfl | later
      · exact List.mem_cons_self
      · exact List.mem_cons_of_mem _ (mem_of_mem_newPairs later)

/-! ## Values are smaller than their mappings -/

mutual

theorem sizeOf_lt_of_mem_mappingPairs {pair : Node × Node} :
    (hops : Nat) → (n : Node) → pair ∈ mappingPairs hops n → sizeOf pair.2 < sizeOf n
  | hops + 1, .aliasTo _ target, member => by
    have below := sizeOf_lt_of_mem_mappingPairs hops target (by simpa [mappingPairs] using member)
    simp only [aliasTo.sizeOf_spec]; omega
  | 0, .aliasTo _ _, member => by simp [mappingPairs] at member
  | hops, .mapping _ pairs, member => by
    have below := sizeOf_lt_of_mem_splice _ pairs
      (by cases hops <;> simpa [mappingPairs] using member)
    simp only [mapping.sizeOf_spec]; omega
  | hops, .scalar _ _, member => by cases hops <;> simp [mappingPairs] at member
  | hops, .sequence _ _, member => by cases hops <;> simp [mappingPairs] at member
  | hops, .document _ _, member => by cases hops <;> simp [mappingPairs] at member

theorem sizeOf_lt_of_mem_sourcePairs {pair : Node × Node} :
    (hops : Nat) → (n : Node) → pair ∈ sourcePairs hops n → sizeOf pair.2 < sizeOf n
  | hops + 1, .aliasTo _ target, member => by
    have below := sizeOf_lt_of_mem_sourcePairs hops target (by simpa [sourcePairs] using member)
    simp only [aliasTo.sizeOf_spec]; omega
  | 0, .aliasTo _ _, member => by simp [sourcePairs] at member
  | hops, .mapping _ pairs, member => by
    have below := sizeOf_lt_of_mem_splice _ pairs
      (by cases hops <;> simpa [sourcePairs] using member)
    simp only [mapping.sizeOf_spec]; omega
  | hops, .sequence _ items, member => by
    have below := sizeOf_lt_of_mem_itemPairs items
      (by cases hops <;> simpa [sourcePairs] using member)
    simp only [sequence.sizeOf_spec]; omega
  | hops, .scalar _ _, member => by cases hops <;> simp [sourcePairs] at member
  | hops, .document _ _, member => by cases hops <;> simp [sourcePairs] at member

theorem sizeOf_lt_of_mem_itemPairs {pair : Node × Node} :
    (items : List Node) → pair ∈ itemPairs items → sizeOf pair.2 < sizeOf items
  | [], member => by simp [itemPairs] at member
  | item :: rest, member => by
    rcases List.mem_append.1 (by simpa [itemPairs] using member) with here | later
    · have below := sizeOf_lt_of_mem_mappingPairs aliasHops item here
      simp only [List.cons.sizeOf_spec]; omega
    · have below := sizeOf_lt_of_mem_itemPairs rest later
      simp only [List.cons.sizeOf_spec]; omega

theorem sizeOf_lt_of_mem_splice {pair : Node × Node} :
    (taken : List String) → (pairs : List (Node × Node)) → pair ∈ splice taken pairs →
      sizeOf pair.2 < sizeOf pairs
  | _, [], member => by simp [splice] at member
  | taken, (key, value) :: rest, member => by
    simp only [List.cons.sizeOf_spec, Prod.mk.sizeOf_spec]
    unfold splice at member
    split at member
    · rcases List.mem_append.1 member with here | later
      · have below := sizeOf_lt_of_mem_sourcePairs aliasHops value (mem_of_mem_newPairs here)
        omega
      · have below := sizeOf_lt_of_mem_splice _ rest later
        omega
    · rcases List.mem_cons.1 member with rfl | later
      · dsimp only; omega
      · have below := sizeOf_lt_of_mem_splice _ rest later
        omega

end

theorem sizeOf_lt_of_mem_effectivePairs {n : Node} {pair : Node × Node}
    (member : pair ∈ n.effectivePairs) : sizeOf pair.2 < sizeOf n :=
  sizeOf_lt_of_mem_mappingPairs 0 n member

end DocRefs.Node
