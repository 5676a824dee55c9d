import DocRefs.Proofs.Node.Equivalent
import Mathlib.Data.List.Find

/-!
# Walks in trees without aliases

Expanding a tree puts the target of every alias into its place. A walk looks through the aliases
among values and items, so it comes to the same in both trees; a key is compared by the text that it
has itself, which is the anchor's name if it is an alias. So a tree may be expanded everywhere but
in its keys, and in the keys too where that makes no difference for the segments that are looked for
(`SpelledAlong`). Main result: `atSegments?_expanded`.
-/
namespace DocRefs.Node

/-! ### Expansion -/

mutual

/-- The tree with the target of every alias in its place. Keys are left as they are written, or are
expanded too. -/
def expanded (inKeys : Bool) : Node → Node
  | scalar info text => .scalar info text
  | sequence info items => .sequence info (expandedItems inKeys items)
  | mapping info pairs => .mapping info (expandedPairs inKeys pairs)
  | document info root => .document info (root.expanded inKeys)
  | aliasTo _ target => target.expanded inKeys

def expandedItems (inKeys : Bool) : List Node → List Node
  | [] => []
  | item :: rest => item.expanded inKeys :: expandedItems inKeys rest

def expandedPairs (inKeys : Bool) : List (Node × Node) → List (Node × Node)
  | [] => []
  | (key, value) :: rest =>
    (if inKeys then key.expanded inKeys else key, value.expanded inKeys) ::
      expandedPairs inKeys rest

end

section

variable (inKeys : Bool)

def expandedPair (pair : Node × Node) : Node × Node :=
  (if inKeys then pair.1.expanded inKeys else pair.1, pair.2.expanded inKeys)

theorem expandedItems_eq (items : List Node) :
    expandedItems inKeys items = items.map (expanded inKeys) := by
  induction items with
  | nil => rfl
  | cons item rest ih => rw [expandedItems, ih, List.map_cons]

theorem expandedPairs_eq (pairs : List (Node × Node)) :
    expandedPairs inKeys pairs = pairs.map (expandedPair inKeys) := by
  induction pairs with
  | nil => rfl
  | cons pair rest ih => rw [expandedPairs, ih, List.map_cons, expandedPair]

@[simp] theorem expanded_behind : (n : Node) → n.behind.expanded inKeys = n.expanded inKeys
  | aliasTo _ target => by rw [behind, expanded_behind target, expanded]
  | scalar .. | sequence .. | mapping .. | document .. => rfl

theorem isAlias_expanded : (n : Node) → (n.expanded inKeys).isAlias = false
  | aliasTo _ target => by rw [expanded, isAlias_expanded target]
  | scalar .. | sequence .. | mapping .. | document .. => by simp [expanded, isAlias, kind]

theorem resolveAlias_expanded (n : Node) :
    (n.expanded inKeys).resolveAlias = n.expanded inKeys :=
  resolveAlias_of_not_alias (isAlias_expanded inKeys n)

theorem text_expanded : (n : Node) → (n.expanded inKeys).text = n.behind.text
  | aliasTo _ target => by rw [expanded, text_expanded target, behind]
  | scalar .. | sequence .. | mapping .. | document .. => by simp [expanded, behind, text]

theorem expanded_resolveAlias {n : Node} (short : n.aliasChain ≤ aliasHops) :
    n.resolveAlias.expanded inKeys = n.expanded inKeys := by
  rw [resolveAlias, follow_eq_behind short, expanded_behind]

theorem isAlias_resolveAlias {n : Node} (short : n.aliasChain ≤ aliasHops) :
    n.resolveAlias.isAlias = false := by
  rw [resolveAlias, follow_eq_behind short, isAlias_behind]

end

mutual

/-- What is left in the keys can be expanded afterwards. -/
theorem expanded_expanded (inKeys : Bool) :
    (n : Node) → (n.expanded inKeys).expanded true = n.expanded true
  | scalar _ _ => by simp only [expanded]
  | sequence _ items => by simp only [expanded, expandedItems_expanded inKeys items]
  | mapping _ pairs => by simp only [expanded, expandedPairs_expanded inKeys pairs]
  | document _ root => by simp only [expanded, expanded_expanded inKeys root]
  | aliasTo _ target => by simp only [expanded, expanded_expanded inKeys target]

theorem expandedItems_expanded (inKeys : Bool) : (items : List Node) →
    expandedItems true (expandedItems inKeys items) = expandedItems true items
  | [] => rfl
  | item :: rest => by
    simp only [expandedItems, expanded_expanded inKeys item, expandedItems_expanded inKeys rest]

theorem expandedPairs_expanded (inKeys : Bool) : (pairs : List (Node × Node)) →
    expandedPairs true (expandedPairs inKeys pairs) = expandedPairs true pairs
  | [] => rfl
  | (key, value) :: rest => by
    have keys : (if inKeys then key.expanded inKeys else key).expanded true = key.expanded true := by
      cases inKeys
      · rfl
      · exact expanded_expanded true key
    simp only [expandedPairs, if_true, keys, expanded_expanded inKeys value,
      expandedPairs_expanded inKeys rest]

end

/-! ### One step -/

/-- At every node that the walk comes to, a key has the next segment for its text exactly if the
node that it stands for does. Only an alias can break this. -/
inductive SpelledAlong : Node → List String → Prop
  | arrived (n : Node) : SpelledAlong n []
  | onward {n : Node} {segment : String} {rest : List String}
    (keys : ∀ pair ∈ n.pairs, pair.1.behind.text = segment ↔ pair.1.text = segment)
    (later : ∀ next, n.child? segment = some next → SpelledAlong next rest) :
    SpelledAlong n (segment :: rest)

variable {inKeys : Bool} {n : Node}

theorem pairs_expanded (plain : n.isAlias = false) :
    (n.expanded inKeys).pairs = n.pairs.map (expandedPair inKeys) := by
  cases n with
  | mapping info pairs => rw [expanded, expandedPairs_eq, Node.pairs, Node.pairs]
  | aliasTo info target => simp [isAlias, kind] at plain
  | _ => simp [expanded, Node.pairs]

theorem findKey?_expanded (plain : n.isAlias = false) {segment : String}
    (keys : inKeys = true →
      ∀ pair ∈ n.pairs, pair.1.behind.text = segment ↔ pair.1.text = segment) :
    (n.expanded inKeys).findKey? segment = (n.findKey? segment).map (expandedPair inKeys) := by
  have alike : ∀ pair ∈ n.pairs,
      decide ((expandedPair inKeys pair).1.text = segment) = decide (pair.1.text = segment) := by
    intro pair member
    cases inKeys with
    | false => rfl
    | true =>
      have spelled := keys rfl pair member
      simpa [expandedPair, text_expanded] using spelled
  rw [findKey?, pairs_expanded plain, List.find?_map]
  exact congrArg _ (List.find?_congr alike)

theorem itemAt?_expanded (items : List Node) (segment : String) :
    itemAt? (expandedItems inKeys items) segment =
      (itemAt? items segment).map (expanded inKeys) := by
  rw [expandedItems_eq, itemAt?, itemAt?]
  split
  · exact List.getElem?_map ..
  · rfl

/-- A step from a node that is no alias comes to the same in the expanded tree. -/
theorem child?_expanded (short : n.ShortChains) (plain : n.isAlias = false) {segment : String}
    (keys : inKeys = true →
      ∀ pair ∈ n.pairs, pair.1.behind.text = segment ↔ pair.1.text = segment) :
    (n.expanded inKeys).child? segment = (n.child? segment).map (expanded inKeys) := by
  cases n with
  | mapping info pairs =>
    change (((mapping info pairs).expanded inKeys).findKey? segment).map _ = _
    rw [findKey?_expanded plain keys, child?, Option.map_map, Option.map_map]
    refine Option.map_congr fun pair found => ?_
    have member : pair ∈ pairs := List.mem_of_find?_eq_some found
    have value_short := short pair.2 (reaches_value member)
    simp only [Function.comp_apply, expandedPair]
    rw [resolveAlias_expanded, expanded_resolveAlias inKeys value_short]
  | sequence info items =>
    change (itemAt? (expandedItems inKeys items) segment).map _ = _
    rw [itemAt?_expanded, child?, Option.map_map, Option.map_map]
    refine Option.map_congr fun item found => ?_
    have item_short := short item (reaches_item (mem_of_itemAt? found))
    simp only [Function.comp_apply]
    rw [resolveAlias_expanded, expanded_resolveAlias inKeys item_short]
  | aliasTo info target => simp [isAlias, kind] at plain
  | _ => rfl

theorem isAlias_of_child? (short : n.ShortChains) {segment : String} {next : Node}
    (step : n.child? segment = some next) : next.isAlias = false := by
  cases n with
  | mapping info pairs =>
    obtain ⟨pair, found, rfl⟩ := Option.map_eq_some_iff.mp step
    exact isAlias_resolveAlias (short pair.2 (reaches_value (List.mem_of_find?_eq_some found)))
  | sequence info items =>
    obtain ⟨item, found, rfl⟩ := Option.map_eq_some_iff.mp step
    exact isAlias_resolveAlias (short item (reaches_item (mem_of_itemAt? found)))
  | _ => simp [child?] at step

/-! ### Walks -/

theorem foldlM_child?_expanded {path : List String} (short : n.ShortChains)
    (plain : n.isAlias = false) (spelled : inKeys = true → SpelledAlong n path) :
    path.foldlM child? (n.expanded inKeys) = (path.foldlM child? n).map (expanded inKeys) := by
  induction path generalizing n with
  | nil => rfl
  | cons segment rest ih =>
    have keys : inKeys = true →
        ∀ pair ∈ n.pairs, pair.1.behind.text = segment ↔ pair.1.text = segment := by
      intro all
      cases spelled all with
      | onward keys later => exact keys
    rw [List.foldlM_cons, List.foldlM_cons, child?_expanded short plain keys]
    cases step : n.child? segment with
    | none => rfl
    | some next =>
      refine ih (short.of_reaches (reaches_child? step)) (isAlias_of_child? short step) ?_
      intro all
      cases spelled all with
      | onward keys later => exact later next step

/-- A walk finds nothing in the tree and nothing in the expanded one, or a node in the tree and the
same node, expanded, in the other; so what they find is equal once it is expanded everywhere. -/
theorem atSegments?_expanded (inKeys : Bool) {root : Node} (short : root.ShortChains)
    (path : List String) (spelled : inKeys = true → SpelledAlong root.resolveAlias path) :
    (root.expanded inKeys).atSegments? path =
        (root.atSegments? path).map (expanded inKeys) ∧
      ((root.expanded inKeys).atSegments? path).map (expanded true) =
        (root.atSegments? path).map (expanded true) := by
  have root_short := short root (.refl root)
  have walked : (root.expanded inKeys).atSegments? path =
      (root.atSegments? path).map (expanded inKeys) := by
    rw [atSegments?, resolveAlias_expanded, ← expanded_resolveAlias inKeys root_short]
    exact foldlM_child?_expanded (short.of_reaches (reaches_resolveAlias root))
      (isAlias_resolveAlias root_short) spelled
  refine ⟨walked, ?_⟩
  rw [walked, Option.map_map]
  exact Option.map_congr fun found _ => expanded_expanded inKeys found

namespace Expanded

def word (number : Nat) (text : String) (anchor : Option String) : Node :=
  .scalar { id := ⟨number⟩, tag := CoreTag.str, anchor } text

def standing (number : Nat) (target : Node) : Node :=
  .aliasTo { id := ⟨number⟩, tag := target.tag } target

/-- A list whose second item is an alias. -/
def list : Node :=
  .sequence { id := ⟨1⟩, tag := CoreTag.seq } [word 2 "one" none, standing 3 (word 4 "two" none)]

/-- A mapping with an alias for a key and the list behind two aliases. -/
def inner : Node :=
  .mapping { id := ⟨5⟩, tag := CoreTag.map }
    [(standing 6 (word 7 "name" (some "n")), word 8 "other" none),
      (word 9 "list" none, standing 10 (standing 11 list))]

/-- The mapping behind an alias. -/
def outer : Node := standing 12 inner

theorem mem_outer {m : Node} (reached : outer.Reaches m) :
    m ∈ [outer, inner, standing 6 (word 7 "name" (some "n")), word 7 "name" (some "n"),
      word 8 "other" none, word 9 "list" none, standing 10 (standing 11 list), standing 11 list,
      list, word 2 "one" none, standing 3 (word 4 "two" none), word 4 "two" none] := by
  apply mem_of_reaches _ _ reached
  · simp [outer, inner, list, standing, word, Edge, children, aliasTarget?]
  · simp

end Expanded

open Expanded in
/-- The walk passes aliases at the root, as value and as item, and a key that is one. -/
theorem atSegments?_expanded_outer :
    outer.ShortChains ∧ SpelledAlong outer.resolveAlias ["list", "1"] ∧
      (outer.atSegments? ["list", "1"]).map text = some "two" ∧
      (outer.expanded true).atSegments? ["list", "1"] =
        (outer.atSegments? ["list", "1"]).map (expanded true) := by
  have short : outer.ShortChains := by
    intro m reached
    have here := mem_outer reached
    simp only [List.mem_cons, List.not_mem_nil, or_false] at here
    obtain rfl | rfl | rfl | rfl | rfl | rfl | rfl | rfl | rfl | rfl | rfl | rfl := here <;> decide
  have spelled : SpelledAlong outer.resolveAlias ["list", "1"] := by
    refine .onward (by decide +kernel) fun next step => ?_
    obtain rfl : list = next := Option.some.inj step
    exact .onward (by decide +kernel) fun last _ => .arrived last
  exact ⟨short, spelled, by decide +kernel,
    (atSegments?_expanded true short ["list", "1"] fun _ => spelled).1⟩

/-- A mapping whose only key is an alias of `name` under the anchor `n`. -/
def Expanded.keyed : Node :=
  .mapping { id := ⟨1⟩, tag := CoreTag.map }
    [(standing 2 (word 3 "name" (some "n")), word 4 "one" none)]

open Expanded in
/-- The key is found by its target's text in the expanded tree only, and by the anchor's name in the
tree only. -/
theorem key_found_in_one :
    keyed.ShortChains ∧ keyed.atSegments? ["name"] = none ∧
      ((keyed.expanded true).atSegments? ["name"]).map text = some "one" ∧
      (keyed.atSegments? ["n"]).map text = some "one" ∧
      (keyed.expanded true).atSegments? ["n"] = none := by
  have short : keyed.ShortChains := by
    intro m reached
    have here : m ∈ [keyed, standing 2 (word 3 "name" (some "n")), word 3 "name" (some "n"),
        word 4 "one" none] := by
      apply mem_of_reaches _ _ reached
      · simp [keyed, standing, word, Edge, children, aliasTarget?]
      · simp
    simp only [List.mem_cons, List.not_mem_nil, or_false] at here
    obtain rfl | rfl | rfl | rfl := here <;> decide
  exact ⟨short, rfl, by decide +kernel, by decide +kernel, rfl⟩

end DocRefs.Node
