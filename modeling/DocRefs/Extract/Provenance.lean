import DocRefs.Digest.Content

/-!
# Provenance

Values together with the nodes they come from and the pointer they were reached through. Keys are
equal if their values are, wherever they come from.
-/
namespace DocRefs

/-- A value that comes from a pair of a mapping. -/
structure FromPair (α : Type) where
  value : α
  key : Option Node := none
  node : Option Node := none
  reference : Option String := none
  deriving Repr, Inhabited

/-- A value that comes from a node. -/
structure FromNode (α : Type) where
  value : α
  node : Option Node := none
  reference : Option String := none
  deriving Repr, Inhabited

/-- A value that comes from a key. -/
structure FromKey (α : Type) where
  value : α
  node : Option Node := none
  deriving Repr, Inhabited

namespace FromPair

variable {α : Type}

def isReference (p : FromPair α) : Bool := p.reference.isSome

/-- Nothing was found to make the value from. -/
def isEmpty (p : FromPair α) : Bool := p.node.isNone

/-- Puts another value in place of the one there. -/
def exchange (p : FromPair α) (value : α) : α × FromPair α := (p.value, { p with value })

end FromPair

namespace FromNode

variable {α : Type}

def isReference (p : FromNode α) : Bool := p.reference.isSome

def exchange (p : FromNode α) (value : α) : α × FromNode α := (p.value, { p with value })

end FromNode

namespace FromKey

variable {α : Type}

def exchange (p : FromKey α) (value : α) : α × FromKey α := (p.value, { p with value })

instance [BEq α] : BEq (FromKey α) := ⟨fun a b => a.value == b.value⟩

@[simp] theorem beq_eq [BEq α] (a b : FromKey α) : (a == b) = (a.value == b.value) := rfl

instance [BEq α] [EquivBEq α] : EquivBEq (FromKey α) where
  rfl := BEq.rfl (α := α)
  symm := BEq.symm (α := α)
  trans := BEq.trans (α := α)

instance [Hashable α] : Hashable (FromKey α) := ⟨fun k => hash k.value⟩

instance [BEq α] [Hashable α] [LawfulHashable α] : LawfulHashable (FromKey α) where
  hash_eq a b same := LawfulHashable.hash_eq a.value b.value same

end FromKey

/-- The pointer that a value was reached through, as it is written, or nothing. -/
def writtenReference (reference : Option String) : String := reference.getD ""

end DocRefs
