import DocRefs.Digest.Content
import DocRefs.Proofs.Node.Reach
import Mathlib.Algebra.Ring.Nat
import Mathlib.Data.List.Forall2

/-!
# Trees that say the same

Two trees say the same when they differ at most in how nodes are shared through aliases and in the
order of the pairs of mappings.
-/
namespace DocRefs.Node

/-- How many aliases come one after another, beginning with the node. -/
def aliasChain : Node → Nat
  | aliasTo _ target => target.aliasChain + 1
  | _ => 0

/-- What the node stands for, however long its chain of aliases. -/
def behind : Node → Node
  | aliasTo _ target => target.behind
  | n => n

/-- No chain of aliases in the tree is longer than those that are followed. -/
def ShortChains (n : Node) : Prop := ∀ m, n.Reaches m → m.aliasChain ≤ aliasHops

theorem ShortChains.of_reaches {n m : Node} (short : n.ShortChains) (reached : n.Reaches m) :
    m.ShortChains := by
  intro k further
  exact short k (reached.trans further)

/-- The length of every tag fits into eight bytes, as that of any text in memory does. -/
def TagsFit (n : Node) : Prop := ∀ m, n.Reaches m → (utf8Bytes m.tag).length < 256 ^ 8

theorem TagsFit.of_reaches {n m : Node} (fits : n.TagsFit) (reached : n.Reaches m) : m.TagsFit := by
  intro k further
  exact fits k (reached.trans further)

theorem follow_eq_behind {hops : Nat} {n : Node} (short : n.aliasChain ≤ hops) :
    follow hops n = n.behind := by
  induction hops generalizing n with
  | zero =>
    cases n with
    | aliasTo info target => simp [aliasChain] at short
    | _ => rfl
  | succ hops ih =>
    cases n with
    | aliasTo info target => exact ih (by simpa [aliasChain] using short)
    | _ => rfl

theorem reaches_behind : (n : Node) → n.Reaches n.behind
  | aliasTo _ target => .head (.inr rfl) (reaches_behind target)
  | scalar .. | sequence .. | mapping .. | document .. => .refl _

theorem sizeOf_behind_le : (n : Node) → sizeOf n.behind ≤ sizeOf n
  | aliasTo _ target => by
    have smaller := sizeOf_behind_le target
    simp only [behind, aliasTo.sizeOf_spec]
    omega
  | scalar .. | sequence .. | mapping .. | document .. => Nat.le_refl _

theorem mem_children_of_key {info : NodeInfo} {pairs : List (Node × Node)} {key : Node}
    (member : key ∈ pairs.map Prod.fst) : key ∈ (mapping info pairs).children := by
  obtain ⟨pair, listed, rfl⟩ := List.mem_map.mp member
  exact List.mem_flatMap.mpr ⟨pair, listed, by simp⟩

theorem mem_children_of_value {info : NodeInfo} {pairs : List (Node × Node)} {value : Node}
    (member : value ∈ pairs.map Prod.snd) : value ∈ (mapping info pairs).children := by
  obtain ⟨pair, listed, rfl⟩ := List.mem_map.mp member
  exact List.mem_flatMap.mpr ⟨pair, listed, by simp⟩

theorem sizeOf_lt_of_mem_children {n child : Node} (member : child ∈ n.children) :
    sizeOf child < sizeOf n := by
  cases n with
  | mapping info pairs =>
    obtain ⟨⟨key, value⟩, listed, part⟩ := List.mem_flatMap.mp member
    have smaller := List.sizeOf_lt_of_mem listed
    simp only [List.mem_cons, List.not_mem_nil, or_false] at part
    simp only [Prod.mk.sizeOf_spec, mapping.sizeOf_spec] at smaller ⊢
    obtain rfl | rfl := part <;> omega
  | sequence info items =>
    have smaller : sizeOf child < sizeOf items := List.sizeOf_lt_of_mem member
    simp only [sequence.sizeOf_spec]
    omega
  | document info root =>
    obtain rfl : child = root := by simpa [children] using member
    simp only [document.sizeOf_spec]
    omega
  | scalar info text => simp [children] at member
  | aliasTo info target => simp [children] at member

theorem isAlias_behind : (n : Node) → n.behind.isAlias = false
  | aliasTo _ target => isAlias_behind target
  | scalar .. | sequence .. | mapping .. | document .. => rfl

theorem behind_ne_alias (info : NodeInfo) (target : Node) :
    (n : Node) → n.behind ≠ aliasTo info target
  | aliasTo _ next => behind_ne_alias info target next
  | scalar .. | sequence .. | mapping .. | document .. => by simp [behind]

/-- Both nodes stand for nodes of one kind: scalars with the same tag and text, sequences and
documents with parts that say the same one by one, or mappings whose pairs do so in some order. -/
inductive Equivalent : Node → Node → Prop where
  | scalar {a b : Node} {info other : NodeInfo} {text : String}
    (left : a.behind = .scalar info text) (right : b.behind = .scalar other text)
    (tags : info.tag = other.tag) : Equivalent a b
  | sequence {a b : Node} {info other : NodeInfo} {xs ys : List Node}
    (left : a.behind = .sequence info xs) (right : b.behind = .sequence other ys)
    (items : List.Forall₂ Equivalent xs ys) : Equivalent a b
  | mapping {a b : Node} {info other : NodeInfo} {xs ys zs : List (Node × Node)}
    (left : a.behind = .mapping info xs) (right : b.behind = .mapping other ys)
    (order : zs.Perm ys) (keys : List.Forall₂ Equivalent (xs.map Prod.fst) (zs.map Prod.fst))
    (values : List.Forall₂ Equivalent (xs.map Prod.snd) (zs.map Prod.snd)) : Equivalent a b
  | document {a b : Node} {info other : NodeInfo} {x y : Node}
    (left : a.behind = .document info x) (right : b.behind = .document other y)
    (roots : Equivalent x y) : Equivalent a b

end DocRefs.Node
