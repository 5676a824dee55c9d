import DocRefs.Digest.Engine
import DocRefs.Proofs.Node.Equivalent

/-!
# What an engine makes of a node

Hashers are cleared before they are used again, so the digest of a node is a function of the seed
and the node alone (`Engine.gives_nodeDigest`). Where chains of aliases are followed to their ends,
it is the digest of the bytes `encoded` for the node, behind the seed (`Engine.hashNode_eq`).
-/
namespace DocRefs

/-! ### Hashers that are used again -/

namespace Engine

variable {α β : Type} {seed : List UInt8}

def Clean (e : Engine) : Prop := ∀ hasher ∈ e.hashers.idle, hasher = {}

/-- With that seed the computation has the value, whatever was computed before, and leaves nothing
behind but hashers. -/
def Gives (seed : List UInt8) (computation : Hashing α) (value : α) : Prop :=
  ∀ e : Engine, e.Clean → e.seed.getD [] = seed →
    ∃ hashers, computation.run e = (value, { e with hashers }) ∧ Clean { e with hashers }

namespace Gives

theorem pure (value : α) : Gives seed (Pure.pure value) value :=
  fun e clean _ => ⟨e.hashers, rfl, clean⟩

theorem bind {first : Hashing α} {value : α} {next : α → Hashing β} {result : β}
    (starts : Gives seed first value) (goes_on : Gives seed (next value) result) :
    Gives seed (first >>= next) result := by
  intro e clean seeded
  obtain ⟨between, run, clean⟩ := starts e clean seeded
  obtain ⟨after, rerun, clean⟩ := goes_on { e with hashers := between } clean seeded
  refine ⟨after, ?_, clean⟩
  rw [StateT.run_bind, run]
  exact rerun

end Gives

theorem gives_digestBytes (bytes : List UInt8) :
    Gives seed (digestBytes bytes) (sha256 (seed ++ bytes)) := by
  intro e clean seeded
  have fresh : e.hashers.take.1 = {} := by
    obtain new | idle := e.hashers.take_cases
    · exact new
    · exact clean _ idle
  have value : sha256 (seed ++ bytes) =
      ((e.hashers.take.1.absorb (e.seed.getD [])).absorb bytes).finish := by
    rw [fresh, seeded, sha256, Hasher.absorb_append]
  refine ⟨e.hashers.take.2.give ((e.hashers.take.1.absorb (e.seed.getD [])).absorb bytes), ?_, ?_⟩
  · rw [value]
    rfl
  · intro hasher member
    obtain rfl | idle := Pool.mem_give member
    · rfl
    · exact clean hasher (Pool.mem_of_mem_take idle)

/-! ### The digest of a node -/

mutual

/-- The digest of a node behind the seed, when so many aliases may still be followed. -/
def digestWithin (seed : List UInt8) : Nat → Node → Digest
  | hops + 1, .aliasTo _ target => digestWithin seed hops target
  | 0, .aliasTo _ _ => sha256 (seed ++ cycleMark)
  | _, .scalar info text => sha256 (seed ++ scalarBytes info.tag text)
  | _, .document _ root => sha256 (seed ++ listBytes "D" [digestWithin seed aliasHops root])
  | _, .sequence _ items => sha256 (seed ++ listBytes "Q" (digestsWithin seed items))
  | _, .mapping _ pairs => sha256 (seed ++ pairsBytes (pairsWithin seed pairs))

def digestsWithin (seed : List UInt8) : List Node → List Digest
  | [] => []
  | item :: rest => digestWithin seed aliasHops item :: digestsWithin seed rest

def pairsWithin (seed : List UInt8) : List (Node × Node) → List (Digest × Digest)
  | [] => []
  | (key, value) :: rest =>
    (digestWithin seed aliasHops key, digestWithin seed aliasHops value) :: pairsWithin seed rest

end

/-- The digest of a node behind the seed. -/
def digestOf (seed : List UInt8) (n : Node) : Digest := digestWithin seed aliasHops n

theorem pairsWithin_eq (pairs : List (Node × Node)) :
    pairsWithin seed pairs = pairs.map (Prod.map (digestOf seed) (digestOf seed)) := by
  induction pairs with
  | nil => rfl
  | cons pair rest ih => rw [pairsWithin, ih]; rfl

mutual

theorem gives_nodeDigest : (n : Node) → (hops : Nat) →
    Gives seed (nodeDigest hops n) (digestWithin seed hops n)
  | .aliasTo info target, hops + 1 => by
    rw [nodeDigest, digestWithin]
    exact gives_nodeDigest target hops
  | .aliasTo info target, 0 => by
    rw [nodeDigest, digestWithin]
    exact gives_digestBytes _
  | .scalar info text, hops => by
    rw [nodeDigest, digestWithin]
    exact gives_digestBytes _
  | .document info root, hops => by
    rw [nodeDigest, digestWithin]
    exact (gives_nodeDigest root aliasHops).bind (gives_digestBytes _)
  | .sequence info items, hops => by
    rw [nodeDigest, digestWithin]
    exact (gives_itemDigests items).bind (gives_digestBytes _)
  | .mapping info pairs, hops => by
    rw [nodeDigest, digestWithin]
    exact (gives_pairDigests pairs).bind (gives_digestBytes _)

theorem gives_itemDigests : (items : List Node) →
    Gives seed (itemDigests items) (digestsWithin seed items)
  | [] => .pure []
  | item :: rest => by
    rw [itemDigests, digestsWithin]
    exact (gives_nodeDigest item aliasHops).bind ((gives_itemDigests rest).bind (.pure _))

theorem gives_pairDigests : (pairs : List (Node × Node)) →
    Gives seed (pairDigests pairs) (pairsWithin seed pairs)
  | [] => .pure []
  | (key, value) :: rest => by
    rw [pairDigests, pairsWithin]
    exact (gives_nodeDigest key aliasHops).bind
      ((gives_nodeDigest value aliasHops).bind ((gives_pairDigests rest).bind (.pure _)))

end

/-! ### What is hashed when chains are followed to their ends -/

mutual

/-- The bytes that are hashed for a node, behind the seed. -/
def encoded (seed : List UInt8) : Node → List UInt8
  | .aliasTo _ target => encoded seed target
  | .scalar info text => scalarBytes info.tag text
  | .document _ root => listBytes "D" [sha256 (seed ++ encoded seed root)]
  | .sequence _ items => listBytes "Q" (encodedItems seed items)
  | .mapping _ pairs => pairsBytes (encodedPairs seed pairs)

def encodedItems (seed : List UInt8) : List Node → List Digest
  | [] => []
  | item :: rest => sha256 (seed ++ encoded seed item) :: encodedItems seed rest

def encodedPairs (seed : List UInt8) : List (Node × Node) → List (Digest × Digest)
  | [] => []
  | (key, value) :: rest =>
    (sha256 (seed ++ encoded seed key), sha256 (seed ++ encoded seed value)) ::
      encodedPairs seed rest

end

/-- The digest that goes by what a node says. -/
def structural (seed : List UInt8) (n : Node) : Digest := sha256 (seed ++ encoded seed n)

def structuralPair (seed : List UInt8) (pair : Node × Node) : Digest × Digest :=
  (structural seed pair.1, structural seed pair.2)

theorem encodedItems_eq (items : List Node) :
    encodedItems seed items = items.map (structural seed) := by
  induction items with
  | nil => rfl
  | cons item rest ih => rw [encodedItems, ih]; rfl

theorem encodedPairs_eq (pairs : List (Node × Node)) :
    encodedPairs seed pairs = pairs.map (structuralPair seed) := by
  induction pairs with
  | nil => rfl
  | cons pair rest ih => rw [encodedPairs, ih]; rfl

theorem encoded_behind : (n : Node) → encoded seed n.behind = encoded seed n
  | .aliasTo _ target => encoded_behind target
  | .scalar .. | .sequence .. | .mapping .. | .document .. => rfl

mutual

theorem digestWithin_eq_structural : (n : Node) → (hops : Nat) → n.aliasChain ≤ hops →
    n.ShortChains → digestWithin seed hops n = structural seed n
  -- An alias uses up one hop, and every part starts again with all of them.
  | .aliasTo info target, hops + 1, enough, short => by
    rw [digestWithin]
    exact digestWithin_eq_structural target hops (Nat.le_of_succ_le_succ enough)
      (short.of_reaches (.single (.inr rfl)))
  | .aliasTo info target, 0, enough, _ => by simp [Node.aliasChain] at enough
  | .scalar info text, hops, _, _ => by rw [digestWithin, structural, encoded]
  | .document info root, hops, _, short => by
    have below : root.ShortChains := short.of_reaches (Node.reaches_root info root)
    rw [digestWithin, digestWithin_eq_structural root aliasHops (below root (.refl _)) below]
    rfl
  | .sequence info items, hops, _, short => by
    have each := digestsWithin_eq_structural items fun item member =>
      short.of_reaches (Node.reaches_item member)
    rw [digestWithin, each, structural, encoded, encodedItems_eq]
  | .mapping info pairs, hops, _, short => by
    have each := pairsWithin_eq_structural pairs fun pair member =>
      ⟨short.of_reaches (Node.reaches_key member), short.of_reaches (Node.reaches_value member)⟩
    rw [digestWithin, each, structural, encoded, encodedPairs_eq]

theorem digestsWithin_eq_structural : (items : List Node) → (∀ item ∈ items, item.ShortChains) →
    digestsWithin seed items = items.map (structural seed)
  | [], _ => rfl
  | item :: rest, short => by
    obtain ⟨first, later⟩ := List.forall_mem_cons.mp short
    rw [digestsWithin, digestWithin_eq_structural item aliasHops (first item (.refl _)) first,
      digestsWithin_eq_structural rest later, List.map_cons]

theorem pairsWithin_eq_structural : (pairs : List (Node × Node)) →
    (∀ pair ∈ pairs, pair.1.ShortChains ∧ pair.2.ShortChains) →
    pairsWithin seed pairs = pairs.map (structuralPair seed)
  | [], _ => rfl
  | (key, value) :: rest, short => by
    obtain ⟨⟨ofKey, ofValue⟩, later⟩ := List.forall_mem_cons.mp short
    rw [pairsWithin, digestWithin_eq_structural key aliasHops (ofKey key (.refl _)) ofKey,
      digestWithin_eq_structural value aliasHops (ofValue value (.refl _)) ofValue,
      pairsWithin_eq_structural rest later]
    rfl

end

/-! ### An engine that has digested nothing before -/

theorem clean_new (seed : Option (List UInt8)) : Clean { seed } := by
  intro hasher member
  cases member

/-- The digest of a node, from an engine that has digested nothing before. -/
def hashNode (seed : Option (List UInt8)) (n : Node) : Digest := ((hash (.node n)).run { seed }).1

theorem hashNode_eq_digestOf (seed : Option (List UInt8)) (n : Node) :
    hashNode seed n = digestOf (seed.getD []) n := by
  obtain ⟨hashers, run, _⟩ := gives_nodeDigest n aliasHops _ (clean_new seed) rfl
  -- Nothing is remembered yet, so the digest is computed.
  have unknown : (hash (.node n)).run { seed } =
      ((nodeDigest aliasHops n).run { seed }).map id fun e =>
        { e with cache := (n.id, ((nodeDigest aliasHops n).run { seed }).1) :: e.cache } := by
    rw [hash]
    rfl
  rw [hashNode, unknown, run]
  rfl

theorem hashNode_eq (seed : Option (List UInt8)) {n : Node} (short : n.ShortChains) :
    hashNode seed n = structural (seed.getD []) n := by
  rw [hashNode_eq_digestOf]
  exact digestWithin_eq_structural n aliasHops (short n (.refl n)) short

end Engine

end DocRefs
