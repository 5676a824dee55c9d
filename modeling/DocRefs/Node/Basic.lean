import DocRefs.Node.CoreTag
import DocRefs.Text.Ascii

/-!
# Document nodes

A document is a finite tree. An alias holds the node it stands for, so a tree can never contain
itself, and every traversal is structural. A node has an identity, which equal-looking nodes do not
share: it is what membership in a cycle and the digest cache go by.

`resolveAlias` follows a chain of aliases only so far (`aliasHops`); every reader of a tree that
looks through aliases does so by that one function.
-/
namespace DocRefs

/-- The identity of a node. -/
structure NodeId where
  number : Nat
  deriving DecidableEq, Repr, Hashable, Inhabited

/-- A place in a source text, line and column from one. Nodes made without a text are at 0:0. -/
structure Position where
  line : Nat := 0
  column : Nat := 0
  deriving DecidableEq, Repr, Inhabited

inductive NodeKind where
  | document
  | sequence
  | mapping
  | scalar
  | aliasNode
  deriving DecidableEq, Repr

def NodeKind.name : NodeKind → String
  | document => "document"
  | sequence => "sequence"
  | mapping => "mapping"
  | scalar => "scalar"
  | aliasNode => "alias"

/-- What nodes of every kind have. -/
structure NodeInfo where
  id : NodeId
  tag : String
  anchor : Option String := none
  position : Position := {}
  deriving DecidableEq, Repr, Inhabited

inductive Node where
  | scalar (info : NodeInfo) (text : String)
  | sequence (info : NodeInfo) (items : List Node)
  | mapping (info : NodeInfo) (pairs : List (Node × Node))
  | document (info : NodeInfo) (root : Node)
  | aliasTo (info : NodeInfo) (target : Node)
  deriving Repr

/-- The key that makes a mapping a reference. -/
def referenceKey : String := "$ref"

/-- The key that merges other mappings into its own. -/
def mergeKey : String := "<<"

/-- The longest chain of aliases that is followed. -/
def aliasHops : Nat := 64

namespace Node

instance : Inhabited Node := ⟨.scalar { id := ⟨0⟩, tag := CoreTag.null } ""⟩

def info : Node → NodeInfo
  | scalar info _ | sequence info _ | mapping info _ | document info _ | aliasTo info _ => info

/-- The same node with other information about it. -/
def withInfo (info : NodeInfo) : Node → Node
  | scalar _ text => scalar info text
  | sequence _ items => sequence info items
  | mapping _ pairs => mapping info pairs
  | document _ root => document info root
  | aliasTo _ target => aliasTo info target

def id (n : Node) : NodeId := n.info.id
def tag (n : Node) : String := n.info.tag
def anchor? (n : Node) : Option String := n.info.anchor
def position (n : Node) : Position := n.info.position
def line (n : Node) : Nat := n.position.line
def column (n : Node) : Nat := n.position.column

def kind : Node → NodeKind
  | scalar .. => .scalar
  | sequence .. => .sequence
  | mapping .. => .mapping
  | document .. => .document
  | aliasTo .. => .aliasNode

/-- The text of a scalar, the anchor name of an alias' target, and nothing for the rest. -/
def text : Node → String
  | scalar _ text => text
  | aliasTo _ target => target.anchor?.getD ""
  | _ => ""

/-- The pairs of a mapping in document order. -/
def pairs : Node → List (Node × Node)
  | mapping _ pairs => pairs
  | _ => []

/-- The items of a sequence. -/
def items : Node → List Node
  | sequence _ items => items
  | _ => []

/-- The children in document order: keys and values in turn for a mapping, none for an alias. -/
def children : Node → List Node
  | mapping _ pairs => pairs.flatMap fun (key, value) => [key, value]
  | sequence _ items => items
  | document _ root => [root]
  | _ => []

def isMapping (n : Node) : Bool := n.kind = .mapping
def isSequence (n : Node) : Bool := n.kind = .sequence
def isScalar (n : Node) : Bool := n.kind = .scalar
def isAlias (n : Node) : Bool := n.kind = .aliasNode
def isDocument (n : Node) : Bool := n.kind = .document

/-- The nodes are one and the same. -/
def isSame (a b : Node) : Bool := a.id = b.id

/-- A scalar that is tagged as a merge key. -/
def isMergeKey (n : Node) : Bool := n.isScalar && n.tag = CoreTag.merge

/-! ## Aliases -/

/-- The target of an alias, without following a chain. -/
def aliasTarget? : Node → Option Node
  | aliasTo _ target => some target
  | _ => none

/-- Follows at most `hops` aliases. -/
def follow : Nat → Node → Node
  | hops + 1, aliasTo _ target => follow hops target
  | _, n => n

/-- The node that a chain of aliases stands for. -/
def resolveAlias (n : Node) : Node := follow aliasHops n

@[simp] theorem follow_zero (n : Node) : follow 0 n = n := by
  cases n <;> rfl

@[simp] theorem follow_alias (hops : Nat) (info : NodeInfo) (target : Node) :
    follow (hops + 1) (aliasTo info target) = follow hops target := rfl

theorem follow_of_not_alias {n : Node} (plain : n.isAlias = false) (hops : Nat) :
    follow hops n = n := by
  cases n <;> cases hops <;> first | rfl | simp [isAlias, kind] at plain

theorem resolveAlias_of_not_alias {n : Node} (plain : n.isAlias = false) :
    n.resolveAlias = n := follow_of_not_alias plain _

/-- The content of a document, or the node itself. -/
def unwrapDocument : Node → Node
  | document _ root => root
  | n => n

/-! ## References -/

/-- The key and the value of the reference entry, the value with aliases followed. -/
def refEntry? (n : Node) : Option (Node × Node) :=
  (n.resolveAlias.pairs.find? fun (key, _) => key.text = referenceKey).map
    fun (key, value) => (key, value.resolveAlias)

/-- The pointer text of a reference. -/
def refText? (n : Node) : Option String := n.refEntry?.map fun (_, value) => value.text

def isRef (n : Node) : Bool := n.refEntry?.isSome

/-! ## Looking up keys -/

/-- The first pair whose key has this text. -/
def findKey? (n : Node) (key : String) : Option (Node × Node) :=
  n.pairs.find? fun (k, _) => k.text = key

/-- Where no key stands twice, every pair is found. -/
theorem findKey?_eq_some_iff {n : Node} {key : String} {pair : Node × Node}
    (distinct : (n.pairs.map (·.1.text)).Nodup) :
    n.findKey? key = some pair ↔ pair ∈ n.pairs ∧ pair.1.text = key := by
  rw [findKey?]
  generalize n.pairs = pairs at distinct ⊢
  induction pairs with
  | nil => simp
  | cons first rest ih =>
    obtain ⟨fresh, distinct_rest⟩ := List.nodup_cons.mp distinct
    by_cases here : first.1.text = key
    · rw [List.find?_cons_of_pos (by simpa using here), Option.some.injEq]
      constructor
      · rintro rfl
        exact ⟨List.mem_cons_self, here⟩
      · rintro ⟨member, named⟩
        rcases List.mem_cons.mp member with rfl | later
        · rfl
        · exact absurd (List.mem_map.mpr ⟨pair, later, named.trans here.symm⟩) fresh
    · rw [List.find?_cons_of_neg (by simpa using here), ih distinct_rest]
      refine ⟨fun found => ⟨List.mem_cons_of_mem first found.1, found.2⟩, ?_⟩
      rintro ⟨member, named⟩
      rcases List.mem_cons.mp member with rfl | later
      · exact absurd named here
      · exact ⟨later, named⟩

/-- The first pair whose key has this text up to ASCII case. -/
def findKeyFold? (n : Node) (key : String) : Option (Node × Node) :=
  n.pairs.find? fun (k, _) => Text.equalFold k.text key

mutual

/-- The first pair with this key at any depth: a mapping's own pairs come before those below it, and
aliases are not entered. -/
def findKeyDeep? (key : String) : Node → Option (Node × Node)
  | .mapping _ pairs =>
    (pairs.find? fun (k, _) => k.text = key).or (findInValues? key pairs)
  | .sequence _ items => findInItems? key items
  | .document _ root => root.findKeyDeep? key
  | .scalar _ _ | .aliasTo _ _ => none

def findInItems? (key : String) : List Node → Option (Node × Node)
  | [] => none
  | item :: rest => (item.findKeyDeep? key).or (findInItems? key rest)

def findInValues? (key : String) : List (Node × Node) → Option (Node × Node)
  | [] => none
  | (_, value) :: rest => (value.findKeyDeep? key).or (findInValues? key rest)

end

mutual

/-- How many nodes there are in the tree; an alias counts, its target does not. -/
def size : Node → Nat
  | .scalar _ _ | .aliasTo _ _ => 1
  | .document _ root => 1 + root.size
  | .sequence _ items => 1 + sizeItems items
  | .mapping _ pairs => 1 + sizePairs pairs

def sizeItems : List Node → Nat
  | [] => 0
  | item :: rest => item.size + sizeItems rest

def sizePairs : List (Node × Node) → Nat
  | [] => 0
  | (key, value) :: rest => key.size + value.size + sizePairs rest

end

theorem size_pos (n : Node) : 0 < n.size := by
  cases n <;> simp only [size] <;> omega

end Node

end DocRefs
