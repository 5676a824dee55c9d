import DocRefs.Node.Build
import DocRefs.Proofs.Node.Reach
import Mathlib.Data.List.Basic

/-!
# Identities tell nodes apart

A builder draws identities in ascending order and puts nodes together from nodes that are there
already. So an identity belongs to one node, and it falls from a node to its parts (`Identified`).
Every way to make a node keeps this, whatever other nodes are at hand (`Build.Identifies`).
-/
namespace DocRefs

namespace Node

/-- What is one step below or behind a node. -/
def parts (n : Node) : List Node := n.children ++ n.aliasTarget?.toList

theorem edge_iff {a b : Node} : a.Edge b ↔ b ∈ a.parts := by
  simp [Edge, parts]

@[simp] theorem parts_scalar (info : NodeInfo) (text : String) : (scalar info text).parts = [] :=
  rfl

@[simp] theorem parts_sequence (info : NodeInfo) (items : List Node) :
    (sequence info items).parts = items := List.append_nil items

@[simp] theorem parts_mapping (info : NodeInfo) (pairs : List (Node × Node)) :
    (mapping info pairs).parts = pairs.flatMap fun pair => [pair.1, pair.2] := List.append_nil _

@[simp] theorem parts_document (info : NodeInfo) (root : Node) :
    (document info root).parts = [root] := rfl

@[simp] theorem parts_aliasTo (info : NodeInfo) (target : Node) :
    (aliasTo info target).parts = [target] := rfl

/-- One of the nodes, or below or behind one of them. -/
def Within (held : List Node) (n : Node) : Prop := ∃ h ∈ held, h.Reaches n

namespace Within

variable {held more : List Node} {n m : Node}

theorem of_mem (member : n ∈ held) : Within held n := ⟨n, member, .refl n⟩

theorem reaches (within : Within held n) (reached : n.Reaches m) : Within held m := by
  obtain ⟨h, member, further⟩ := within
  exact ⟨h, member, further.trans reached⟩

theorem part (within : Within held n) (member : m ∈ n.parts) : Within held m :=
  within.reaches (.single (edge_iff.mpr member))

theorem of_forall (each : ∀ h ∈ held, Within more h) (within : Within held n) : Within more n := by
  obtain ⟨h, member, reached⟩ := within
  exact (each h member).reaches reached

theorem mono (subset : held ⊆ more) (within : Within held n) : Within more n :=
  within.of_forall fun _ member => of_mem (subset member)

end Within

theorem not_within_nil (n : Node) : ¬ Within [] n := by
  rintro ⟨h, member, _⟩
  cases member

theorem within_append {held more : List Node} {n : Node} :
    Within (held ++ more) n ↔ Within held n ∨ Within more n := by
  simp only [Within, List.mem_append, or_and_right, exists_or]

/-- What is reached from a node is the node itself or reached from one of its parts. -/
theorem within_cons {held : List Node} {n m : Node} :
    Within (n :: held) m ↔ m = n ∨ Within n.parts m ∨ Within held m := by
  constructor
  · rintro ⟨h, member, reached⟩
    obtain rfl | member := List.mem_cons.mp member
    · obtain rfl | ⟨k, edge, further⟩ := reached.cases_head
      · exact .inl rfl
      · exact .inr (.inl ⟨k, edge_iff.mp edge, further⟩)
    · exact .inr (.inr ⟨h, member, reached⟩)
  · rintro (rfl | ⟨k, member, reached⟩ | ⟨h, member, reached⟩)
    · exact .of_mem (by simp)
    · have whole : Within (n :: held) n := .of_mem (by simp)
      exact (whole.part member).reaches reached
    · exact ⟨h, List.mem_cons_of_mem _ member, reached⟩

/-- No node of the tree has the identity of one that contains it. -/
def Apart (n : Node) : Prop :=
  ∀ a m, n.Reaches a → Relation.TransGen Edge a m → m.id ≠ a.id

theorem Apart.of_reaches {n m : Node} (apart : n.Apart) (reached : n.Reaches m) : m.Apart := by
  intro a b further below
  exact apart a b (reached.trans further) below

end Node

open Node (Within within_append within_cons)

/-- The identities of the nodes at hand are taken, each by one node, and a part has a lower one than
the whole. -/
structure Identified (free : NodeId) (held : List Node) : Prop where
  taken : ∀ n, Within held n → n.id.number < free.number
  single : ∀ a b, Within held a → Within held b → a.id = b.id → a = b
  descends : ∀ a b, Within held a → a.Edge b → b.id.number < a.id.number

namespace Identified

variable {free later : NodeId} {held more : List Node} {n : Node}

theorem nil (free : NodeId) : Identified free [] := by
  constructor
  · intro n within
    exact absurd within (Node.not_within_nil n)
  · intro a b within
    exact absurd within (Node.not_within_nil a)
  · intro a b within
    exact absurd within (Node.not_within_nil a)

theorem mono (known : Identified free held) (within : ∀ n ∈ more, Within held n)
    (less : free.number ≤ later.number) : Identified later more where
  taken n there := Nat.lt_of_lt_of_le (known.taken n (there.of_forall within)) less
  single a b here there := known.single a b (here.of_forall within) (there.of_forall within)
  descends a b here := known.descends a b (here.of_forall within)

/-- A node with an identity of its own may be added, if it is made from what is there. -/
theorem insert (known : Identified free held) (taken : n.id.number < free.number)
    (apart : ∀ m, Within held m → m.id ≠ n.id)
    (parts : ∀ m ∈ n.parts, Within held m ∧ m.id.number < n.id.number) :
    Identified free (n :: held) := by
  have before : ∀ m, Within (n :: held) m → m = n ∨ Within held m := by
    intro m within
    obtain same | below | there := within_cons.mp within
    · exact .inl same
    · exact .inr (below.of_forall fun k member => (parts k member).1)
    · exact .inr there
  constructor
  · intro m within
    obtain rfl | there := before m within
    · exact taken
    · exact known.taken m there
  · intro a b left right same
    obtain isNew | old := before a left
    · obtain alsoNew | other := before b right
      · rw [isNew, alsoNew]
      · exact absurd (isNew ▸ same.symm) (apart b other)
    · -- A node that was there before has another identity than the new one.
      obtain isNew | other := before b right
      · exact absurd (isNew ▸ same) (apart a old)
      · exact known.single a b old other same
  · intro a b within edge
    obtain rfl | there := before a within
    · exact (parts b (Node.edge_iff.mp edge)).2
    · exact known.descends a b there edge

/-- What a tree reaches by at least one step has a lower identity. -/
theorem lt_of_transGen {m : Node} (known : Identified free held) (within : Within held n)
    (below : Relation.TransGen Node.Edge n m) : m.id.number < n.id.number := by
  induction below with
  | single edge => exact known.descends _ _ within edge
  | tail before edge ih =>
    have there := within.reaches before.to_reflTransGen
    exact Nat.lt_trans (known.descends _ _ there edge) ih

theorem apart (known : Identified free held) (within : Within held n) : n.Apart := by
  intro a m reached below same
  have less := known.lt_of_transGen (within.reaches reached) below
  rw [same] at less
  omega

/-- A node that is nowhere else may be exchanged for one with its identity and its parts. -/
theorem exchange {other : Node} (known : Identified free (n :: held))
    (alone : ∀ m, Within held m → m.id ≠ n.id) (id : other.id = n.id)
    (parts : other.parts = n.parts) : Identified free (other :: held) := by
  have self : Within (n :: held) n := .of_mem (by simp)
  have lower : ∀ m ∈ n.parts, m.id.number < n.id.number := fun m member =>
    known.descends n m self (Node.edge_iff.mpr member)
  -- The old node is taken away, but not its parts, and the other one is put in on top of them.
  have rest : Identified free (n.parts ++ held) := by
    apply known.mono _ (Nat.le_refl _)
    intro m member
    obtain part | kept := List.mem_append.mp member
    · exact self.part part
    · exact .of_mem (List.mem_cons_of_mem _ kept)
  have added : Identified free (other :: (n.parts ++ held)) := by
    apply rest.insert
    · rw [id]
      exact known.taken n self
    · rw [id]
      intro m within same
      obtain ⟨part, member, further⟩ | there := within_append.mp within
      · -- What is below the node has a lower identity, so the name is not used there.
        have less := known.lt_of_transGen self (.head' (Node.edge_iff.mpr member) further)
        rw [same] at less
        omega
      · exact alone m there same
    · rw [id, parts]
      intro m member
      exact ⟨.of_mem (List.mem_append_left _ member), lower m member⟩
  apply added.mono _ (Nat.le_refl _)
  intro m member
  apply Within.of_mem
  obtain rfl | kept := List.mem_cons.mp member
  · exact List.mem_cons_self ..
  · exact List.mem_cons_of_mem _ (List.mem_append_right _ kept)

end Identified

/-- From one collection of nodes to another: identities tell the nodes apart, and a node that was
not there before has an identity that was free. -/
structure Extends (free : NodeId) (held : List Node) (later : NodeId) (more : List Node) :
    Prop where
  identified : Identified later more
  free_le : free.number ≤ later.number
  fresh : ∀ n, Within more n → Within held n ∨ free.number ≤ n.id.number

namespace Extends

variable {free later last : NodeId} {held more most : List Node}

theorem refl (known : Identified free held) : Extends free held free held :=
  ⟨known, Nat.le_refl _, fun _ within => .inl within⟩

theorem trans (first : Extends free held later more) (second : Extends later more last most) :
    Extends free held last most := by
  refine ⟨second.identified, Nat.le_trans first.free_le second.free_le, ?_⟩
  intro n within
  obtain before | new := second.fresh n within
  · exact first.fresh n before
  · exact .inr (Nat.le_trans first.free_le new)

theorem mono (grown : Extends free held later more) (within : ∀ n ∈ most, Within more n) :
    Extends free held later most :=
  ⟨grown.identified.mono within (Nat.le_refl _), grown.free_le,
    fun n there => grown.fresh n (there.of_forall within)⟩

end Extends

namespace Build

variable {α β : Type} {held : List Node}

/-- Whatever is free, the nodes that the computation hands on are told apart from each other and
from those that are held. -/
def Identifies (held : List Node) (made : α → List Node) (computation : Build α) : Prop :=
  ∀ free, Identified free held →
    Extends free held (computation.run free).2 (made (computation.run free).1 ++ held)

theorem identifies_pure {made : α → List Node} {value : α}
    (within : ∀ n ∈ made value, Within held n) : Identifies held made (pure value) := by
  intro free known
  apply (Extends.refl known).mono
  intro n member
  obtain here | there := List.mem_append.mp member
  · exact within n here
  · exact .of_mem there

theorem Identifies.bind {made : α → List Node} {after : β → List Node} {first : Build α}
    {next : α → Build β} (starts : Identifies held made first)
    (goes_on : ∀ value, Identifies (made value ++ held) after (next value)) :
    Identifies held after (first >>= next) := by
  intro free known
  have here := starts free known
  -- The second computation keeps apart what the first one has handed on as well; that is dropped.
  have whole := here.trans (goes_on _ _ here.identified)
  apply whole.mono
  intro n member
  apply Within.of_mem
  obtain last | kept := List.mem_append.mp member
  · exact List.mem_append_left _ last
  · exact List.mem_append_right _ (List.mem_append_right _ kept)

/-- What is handed on may be less than what was made. -/
theorem Identifies.map {made : α → List Node} {after : β → List Node} {computation : Build α}
    {f : α → β} (starts : Identifies held made computation)
    (within : ∀ value, ∀ n ∈ after (f value), Within (made value ++ held) n) :
    Identifies held after (f <$> computation) := by
  rw [map_eq_pure_bind]
  exact starts.bind fun value => identifies_pure (within value)

/-! ### New nodes -/

/-- The computation makes a node under an identity that was free. -/
def Makes (held : List Node) (computation : Build Node) : Prop :=
  ∀ free, Identified free held →
    Extends free held (computation.run free).2 ((computation.run free).1 :: held) ∧
    free.number ≤ (computation.run free).1.id.number

theorem Makes.identifies {computation : Build Node} (makes : Makes held computation) :
    Identifies held (fun n => [n]) computation := fun free known => (makes free known).1

theorem makes_freshId {node : NodeId → Node} (named : ∀ id, (node id).id = id)
    (parts : ∀ id, ∀ m ∈ (node id).parts, Within held m) :
    Makes held (freshId >>= fun id => pure (node id)) := by
  intro free known
  have run : (freshId >>= fun id => pure (node id)).run free = (node free, ⟨free.number + 1⟩) := rfl
  have name : (node free).id.number = free.number := by rw [named]
  rw [run]
  refine ⟨⟨?_, Nat.le_succ _, ?_⟩, Nat.le_of_eq name.symm⟩
  · apply Identified.insert (known.mono (fun _ => .of_mem) (Nat.le_succ _))
    · exact Nat.lt_succ_of_le (Nat.le_of_eq name)
    · intro m within same
      have less : (node free).id.number < free.number := same ▸ known.taken m within
      omega
    · intro m member
      have there := parts free m member
      exact ⟨there, by rw [name]; exact known.taken m there⟩
  · intro m within
    obtain rfl | below | there := within_cons.mp within
    · exact .inr (Nat.le_of_eq name.symm)
    · exact .inl (below.of_forall (parts free))
    · exact .inl there

/-- The function changes nothing but what is said about a node. -/
def Describes (f : Node → Node) : Prop := ∀ n, (f n).id = n.id ∧ (f n).parts = n.parts

theorem Makes.map {computation : Build Node} {f : Node → Node} (makes : Makes held computation)
    (describes : Describes f) : Makes held (f <$> computation) := by
  intro free known
  obtain ⟨grown, new⟩ := makes free known
  have run : (f <$> computation).run free =
    (f (computation.run free).1, (computation.run free).2) := rfl
  rw [run]
  generalize (computation.run free).1 = n at grown new
  -- The node is new, so nothing that is held has its identity.
  obtain ⟨id, parts⟩ := describes n
  have alone : ∀ m, Within held m → m.id ≠ n.id := by
    intro m within same
    have less := known.taken m within
    rw [same] at less
    omega
  refine ⟨⟨grown.identified.exchange alone id parts, grown.free_le, ?_⟩, by rw [id]; exact new⟩
  intro m within
  obtain rfl | below | there := within_cons.mp within
  · exact .inr (by rw [id]; exact new)
  · rw [parts] at below
    exact grown.fresh m (within_cons.mpr (.inr (.inl below)))
  · exact .inl there

theorem describes_place (position : Position) : Describes (·.place position) := by
  intro n
  cases n <;> exact ⟨rfl, rfl⟩

theorem describes_anchored (anchor : String) : Describes (·.anchored anchor) := by
  intro n
  cases n <;> exact ⟨rfl, rfl⟩

theorem describes_retagged (tag : String) : Describes (·.retagged tag) := by
  intro n
  cases n <;> exact ⟨rfl, rfl⟩

/-! ### Every way to make a node -/

theorem makes_tagged (text tag : String) : Makes held (tagged text tag) := by
  apply makes_freshId
  · intro id
    rfl
  · intro id m member
    cases member

theorem makes_sequence {items : List Node} (within : ∀ n ∈ items, Within held n) :
    Makes held (sequence items) := by
  apply makes_freshId
  · intro id
    rfl
  · intro id m member
    exact within m (by simpa using member)

theorem makes_aliasTo {target : Node} (within : Within held target) :
    Makes held (aliasTo target) := by
  apply makes_freshId
  · intro id
    rfl
  · intro id m member
    obtain rfl : m = target := by simpa using member
    exact within

theorem makes_document {root : Node} (within : Within held root) : Makes held (document root) := by
  apply makes_freshId
  · intro id
    rfl
  · intro id m member
    obtain rfl : m = root := by simpa using member
    exact within

theorem parts_withInfo (info : NodeInfo) (n : Node) : (n.withInfo info).parts = n.parts := by
  cases n <;> rfl

theorem makes_copy {n : Node} (within : Within held n) : Makes held (copy n) := by
  apply makes_freshId
  · intro id
    exact congrArg NodeInfo.id (Node.info_withInfo n _)
  · intro id m member
    rw [parts_withInfo] at member
    exact within.part member

theorem identifies_mappingKey {key : Node} (within : Within held key) :
    Identifies held (fun n => [n]) (mappingKey key) := by
  unfold mappingKey
  split
  · apply Makes.identifies
    apply makes_freshId
    · intro id
      rfl
    · intro id m member
      cases member
  · apply identifies_pure
    simpa using within

theorem Makes.bind (made : α → List Node) {first : Build α} {next : α → Build Node}
    (starts : Identifies held made first)
    (goes_on : ∀ value, Makes (made value ++ held) (next value)) :
    Makes held (first >>= next) := by
  intro free known
  have here := starts free known
  obtain ⟨_, new⟩ := goes_on _ _ here.identified
  exact ⟨starts.bind (fun value => (goes_on value).identifies) free known,
    Nat.le_trans here.free_le new⟩

theorem Identifies.mapM {made : β → List Node} {f : α → Build β} {items : List α}
    (each : ∀ more, ∀ item ∈ items, Identifies (more ++ held) made (f item)) :
    Identifies held (fun values => values.flatMap made) (items.mapM f) := by
  -- What was made for an item is held while the later ones are made.
  induction items generalizing held with
  | nil =>
    rw [List.mapM_nil]
    exact identifies_pure (by simp)
  | cons item rest ih =>
    rw [List.mapM_cons]
    apply (each [] item (List.mem_cons_self ..)).bind
    intro value
    apply Identifies.bind
    · apply ih
      intro more next member
      rw [← List.append_assoc]
      exact each _ next (List.mem_cons_of_mem _ member)
    · intro values
      apply identifies_pure
      intro n member
      apply Within.of_mem
      rw [List.flatMap_cons] at member
      obtain here | there := List.mem_append.mp member
      · exact List.mem_append_right _ (List.mem_append_left _ here)
      · exact List.mem_append_left _ there

theorem makes_mapping {pairs : List (Node × Node)}
    (within : ∀ pair ∈ pairs, Within held pair.1 ∧ Within held pair.2) :
    Makes held (mapping pairs) := by
  unfold mapping
  apply Makes.bind fun pairs => pairs.flatMap fun pair => [pair.1, pair.2]
  · apply Identifies.mapM
    intro more pair member
    obtain ⟨ofKey, ofValue⟩ := within pair member
    apply (identifies_mappingKey (ofKey.mono (List.subset_append_right ..))).bind
    intro key
    apply identifies_pure
    intro n member
    obtain rfl | rfl : n = key ∨ n = pair.2 := by simpa using member
    · exact .of_mem (by simp)
    · exact ofValue.mono (by simp)
  · intro pairs
    apply makes_freshId
    · intro id
      rfl
    · intro id m member
      rw [Node.parts_mapping] at member
      exact .of_mem (List.mem_append_left _ member)

end Build

end DocRefs
