import DocRefs.Node.Basic

/-!
# Listings of a tree

A position says which value or item to take at each step down. The listing of a tree has every node
that is got to in this way with its position (`mem_listing_iff`), the positions in ascending order
(`ordered_listing`): a node comes before what is below it, and that before what follows the node.
-/
namespace DocRefs.Node

/-- The children that a document is read through: keys and the targets of aliases are left out. -/
def values : Node → List Node
  | mapping _ pairs => pairs.map (·.2)
  | sequence _ items => items
  | document _ root => [root]
  | _ => []

/-- The node at a position. -/
def at? : Node → List Nat → Option Node
  | n, [] => some n
  | n, i :: rest => n.values[i]?.bind (·.at? rest)

mutual

/-- The nodes at or below a node in document order, with their positions. -/
def listing : Node → List (List Nat × Node)
  | mapping info pairs => ([], mapping info pairs) :: listingPairs 0 pairs
  | sequence info items => ([], sequence info items) :: listingItems 0 items
  | document info root =>
    ([], document info root) :: root.listing.map fun (position, n) => (0 :: position, n)
  | n => [([], n)]

def listingPairs (i : Nat) : List (Node × Node) → List (List Nat × Node)
  | [] => []
  | (_, value) :: rest =>
    value.listing.map (fun (position, n) => (i :: position, n)) ++ listingPairs (i + 1) rest

def listingItems (i : Nat) : List Node → List (List Nat × Node)
  | [] => []
  | item :: rest =>
    item.listing.map (fun (position, n) => (i :: position, n)) ++ listingItems (i + 1) rest

end

theorem listingPairs_eq (i : Nat) (pairs : List (Node × Node)) :
    listingPairs i pairs = listingItems i (pairs.map (·.2)) := by
  induction pairs generalizing i with
  | nil => rfl
  | cons pair rest ih => rw [listingPairs, ih, List.map_cons, listingItems]

theorem listing_eq (n : Node) : n.listing = ([], n) :: listingItems 0 n.values := by
  cases n with
  | mapping info pairs => rw [listing, listingPairs_eq, values]
  | sequence info items => rw [listing, values]
  | document info root => simp [listing, values, listingItems]
  | scalar info text => rfl
  | aliasTo info target => rfl

/-! ### What is listed -/

theorem mem_listingItems_iff {i : Nat} {ns : List Node} {position : List Nat} {m : Node} :
    (position, m) ∈ listingItems i ns ↔
      ∃ j n rest, ns[j]? = some n ∧ (rest, m) ∈ n.listing ∧ position = (i + j) :: rest := by
  induction ns generalizing i with
  | nil => simp [listingItems]
  | cons n ns ih =>
    rw [listingItems, List.mem_append, ih]
    constructor
    · rintro (first | ⟨j, other, rest, there, listed, rfl⟩)
      · obtain ⟨⟨rest, _⟩, listed, same⟩ := List.mem_map.mp first
        obtain ⟨rfl, rfl⟩ := Prod.mk.inj same
        exact ⟨0, n, rest, rfl, listed, rfl⟩
      · exact ⟨j + 1, other, rest, there, listed, by rw [Nat.add_assoc, Nat.add_comm 1 j]⟩
    · rintro ⟨j, other, rest, there, listed, rfl⟩
      cases j with
      | zero =>
        obtain rfl : n = other := by simpa using there
        exact .inl (List.mem_map.mpr ⟨(rest, m), listed, rfl⟩)
      | succ j =>
        exact .inr ⟨j, other, rest, there, listed, by rw [Nat.add_assoc, Nat.add_comm 1 j]⟩

theorem mem_listing_iff {n m : Node} {position : List Nat} :
    (position, m) ∈ n.listing ↔ n.at? position = some m := by
  induction position generalizing n with
  | nil =>
    rw [listing_eq, List.mem_cons, mem_listingItems_iff]
    simp [at?, eq_comm]
  | cons i rest ih =>
    rw [listing_eq, List.mem_cons, mem_listingItems_iff, at?, Option.bind_eq_some_iff]
    constructor
    · rintro (same | ⟨j, v, below, there, listed, same⟩)
      · simp at same
      · obtain ⟨rfl, rfl⟩ : i = j ∧ rest = below := by simpa using same
        exact ⟨v, there, ih.mp listed⟩
    · rintro ⟨v, there, found⟩
      exact .inr ⟨i, v, rest, there, ih.mpr found, by rw [Nat.zero_add]⟩

/-! ### In which order -/

theorem sizeOf_lt_of_mem_values {n v : Node} (member : v ∈ n.values) : sizeOf v < sizeOf n := by
  cases n with
  | mapping info pairs =>
    obtain ⟨⟨key, value⟩, listed, rfl⟩ := List.mem_map.mp member
    have smaller := List.sizeOf_lt_of_mem listed
    simp only [Prod.mk.sizeOf_spec, mapping.sizeOf_spec] at smaller ⊢
    omega
  | sequence info items =>
    have smaller : sizeOf v < sizeOf items := List.sizeOf_lt_of_mem member
    simp only [sequence.sizeOf_spec]
    omega
  | document info root =>
    obtain rfl := List.mem_singleton.mp member
    simp only [document.sizeOf_spec]
    omega
  | _ => simp [values] at member

/-- What holds of a node if it holds of its values holds of every node. -/
theorem induction_values {P : Node → Prop} (step : ∀ n, (∀ v ∈ n.values, P v) → P n)
    (n : Node) : P n :=
  step n fun v _ => induction_values step v
termination_by n
decreasing_by exact sizeOf_lt_of_mem_values ‹_›

theorem ordered_listingItems {ns : List Node}
    (each : ∀ n ∈ ns, n.listing.Pairwise fun a b => a.1 < b.1) (i : Nat) :
    (listingItems i ns).Pairwise fun a b => a.1 < b.1 := by
  induction ns generalizing i with
  | nil => exact List.Pairwise.nil
  | cons n ns ih =>
    obtain ⟨first, later⟩ := List.forall_mem_cons.mp each
    rw [listingItems, List.pairwise_append]
    refine ⟨List.pairwise_map.mpr (first.imp fun less => ?_), ih later (i + 1), ?_⟩
    · exact List.cons_lt_cons_iff.mpr (.inr ⟨rfl, less⟩)
    · -- What is listed later has a greater first step.
      rintro a listed ⟨position, m⟩ listed_later
      obtain ⟨_, _, rfl⟩ := List.mem_map.mp listed
      obtain ⟨j, _, rest, _, _, rfl⟩ := mem_listingItems_iff.mp listed_later
      exact List.cons_lt_cons_iff.mpr (.inl (by omega))

theorem ordered_listing (n : Node) : n.listing.Pairwise fun a b => a.1 < b.1 := by
  induction n using induction_values with
  | step n ih =>
    rw [listing_eq, List.pairwise_cons]
    refine ⟨?_, ordered_listingItems ih 0⟩
    rintro ⟨position, m⟩ listed
    obtain ⟨j, _, rest, _, _, rfl⟩ := mem_listingItems_iff.mp listed
    exact List.nil_lt_cons _ _

end DocRefs.Node
