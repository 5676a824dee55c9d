import DocRefs.Proofs.Digest.Session

/-!
# Guarded digests

A digest can be taken with a guard against trees that contain themselves: a node whose own digest
has begun and not ended is not entered again, and the mark of a cycle stands for it. Main result:
`Session.digest_guarded`. No program comes to hold a node for which the guard makes a difference,
since the parts of a node always have lower identities than the node.
-/
namespace DocRefs

open Node (Within)

namespace Engine

variable {seed : List UInt8}

mutual

/-- The digest of a node, when the digests of the nodes with these identities have not ended. -/
def guardedWithin (seed : List UInt8) : List NodeId → Nat → Node → Digest
  | active, hops + 1, .aliasTo _ target => guardedWithin seed active hops target
  | _, 0, .aliasTo _ _ => sha256 (seed ++ cycleMark)
  | active, _, .scalar info text =>
    if info.id ∈ active then sha256 (seed ++ cycleMark)
    else sha256 (seed ++ scalarBytes info.tag text)
  | active, _, .document info root =>
    if info.id ∈ active then sha256 (seed ++ cycleMark)
    else sha256 (seed ++ listBytes "D" [guardedWithin seed (info.id :: active) aliasHops root])
  | active, _, .sequence info items =>
    if info.id ∈ active then sha256 (seed ++ cycleMark)
    else sha256 (seed ++ listBytes "Q" (guardedItems seed (info.id :: active) items))
  | active, _, .mapping info pairs =>
    if info.id ∈ active then sha256 (seed ++ cycleMark)
    else sha256 (seed ++ pairsBytes (guardedPairs seed (info.id :: active) pairs))

def guardedItems (seed : List UInt8) (active : List NodeId) : List Node → List Digest
  | [] => []
  | item :: rest => guardedWithin seed active aliasHops item :: guardedItems seed active rest

def guardedPairs (seed : List UInt8) (active : List NodeId) :
    List (Node × Node) → List (Digest × Digest)
  | [] => []
  | (key, value) :: rest =>
    (guardedWithin seed active aliasHops key, guardedWithin seed active aliasHops value) ::
      guardedPairs seed active rest

end

/-- The node can be digested in full: nothing in it is being digested already, and nothing in it
contains itself. -/
structure Ready (active : List NodeId) (n : Node) : Prop where
  idle : ∀ m, n.Reaches m → m.id ∉ active
  apart : n.Apart

theorem Ready.edge {active : List NodeId} {n m : Node} (ready : Ready active n)
    (edge : n.Edge m) : Ready active m where
  idle k reached := ready.idle k (.head edge reached)
  apart := ready.apart.of_reaches (.single edge)

/-- A part of a node is digested while the node is. -/
theorem Ready.part {active : List NodeId} {n m : Node} (ready : Ready active n)
    (edge : n.Edge m) : Ready (n.id :: active) m where
  idle k reached again := by
    rcases List.mem_cons.mp again with same | earlier
    · exact ready.apart n k (.refl n) (.head' edge reached) same
    · exact ready.idle k (.head edge reached) earlier
  apart := ready.apart.of_reaches (.single edge)

mutual

theorem guardedWithin_eq : (n : Node) → (active : List NodeId) → (hops : Nat) →
    Ready active n → guardedWithin seed active hops n = digestWithin seed hops n
  -- An alias is followed and not entered, so its identity does not become active.
  | .aliasTo info target, active, hops + 1, ready => by
    rw [guardedWithin, digestWithin]
    exact guardedWithin_eq target active hops (ready.edge (.inr rfl))
  | .aliasTo info target, active, 0, _ => by rw [guardedWithin, digestWithin]
  | .scalar info text, active, hops, ready => by
    have idle : info.id ∉ active := ready.idle _ (.refl _)
    rw [guardedWithin, digestWithin, if_neg idle]
  | .document info root, active, hops, ready => by
    have idle : info.id ∉ active := ready.idle _ (.refl _)
    have below : Ready (info.id :: active) root := ready.part (.inl (by simp [Node.children]))
    rw [guardedWithin, digestWithin, if_neg idle, guardedWithin_eq root _ aliasHops below]
  | .sequence info items, active, hops, ready => by
    have idle : info.id ∉ active := ready.idle _ (.refl _)
    have below : ∀ item ∈ items, Ready (info.id :: active) item := fun item member =>
      ready.part (.inl member)
    rw [guardedWithin, digestWithin, if_neg idle, guardedItems_eq items _ below]
  | .mapping info pairs, active, hops, ready => by
    have idle : info.id ∉ active := ready.idle _ (.refl _)
    have below : ∀ pair ∈ pairs,
        Ready (info.id :: active) pair.1 ∧ Ready (info.id :: active) pair.2 :=
      Node.forall_mem_children_mapping.mp fun child member => ready.part (.inl member)
    rw [guardedWithin, digestWithin, if_neg idle, guardedPairs_eq pairs _ below]

theorem guardedItems_eq : (items : List Node) → (active : List NodeId) →
    (∀ item ∈ items, Ready active item) → guardedItems seed active items = digestsWithin seed items
  | [], _, _ => rfl
  | item :: rest, active, ready => by
    obtain ⟨first, later⟩ := List.forall_mem_cons.mp ready
    rw [guardedItems, digestsWithin, guardedWithin_eq item active aliasHops first,
      guardedItems_eq rest active later]

theorem guardedPairs_eq : (pairs : List (Node × Node)) → (active : List NodeId) →
    (∀ pair ∈ pairs, Ready active pair.1 ∧ Ready active pair.2) →
      guardedPairs seed active pairs = pairsWithin seed pairs
  | [], _, _ => rfl
  | (key, value) :: rest, active, ready => by
    obtain ⟨⟨ofKey, ofValue⟩, later⟩ := List.forall_mem_cons.mp ready
    rw [guardedPairs, pairsWithin, guardedWithin_eq key active aliasHops ofKey,
      guardedWithin_eq value active aliasHops ofValue, guardedPairs_eq rest active later]

end

/-- The guard makes no difference where nothing contains itself. -/
theorem guardedWithin_nil {n : Node} (apart : n.Apart) :
    guardedWithin seed [] aliasHops n = digestOf seed n :=
  guardedWithin_eq n [] aliasHops ⟨by simp, apart⟩

end Engine

namespace Session

/-- Whatever a program has done, the guarded digest of any node that it holds is the one without
guard. -/
theorem digest_guarded {seed : Option (List UInt8)} {log : List (Query × Reply)} {s : Session}
    (run : Run (start seed) log s) {n : Node} (within : Within s.held n) :
    Engine.guardedWithin (seed.getD []) [] aliasHops n = Engine.hashNode seed n := by
  obtain ⟨ledger, sound, _⟩ := run.sound (sound_start seed)
  rw [Engine.hashNode_eq_digestOf]
  exact Engine.guardedWithin_nil (sound.identified.apart within)

end Session

end DocRefs
