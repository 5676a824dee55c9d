import DocRefs.Graph
import DocRefs.Node.Basic
import DocRefs.Table

/-!
# References and findings

A reference is a place in a document with the absolute pointer to it, or a place that points
elsewhere. A finding is a cycle of such places: it begins and ends at the same definition.
-/
namespace DocRefs

structure Reference where
  /-- The absolute pointer. -/
  definition : String
  /-- The pointer as it is written. -/
  raw : String
  /-- The last segment of the fragment. -/
  name : String
  node : Node
  key : Option Node := none
  /-- The place lies on a cycle. -/
  circular : Bool := false
  deriving Repr, Inhabited

def Reference.onCycle (r : Reference) : Reference := { r with circular := true }

/-- A cycle with the places that make it up. -/
structure Finding where
  journey : List Reference
  /-- The place where the cycle closes. -/
  loop : Reference
  /-- How far down the search the cycle began. -/
  depth : Nat
  deriving Repr, Inhabited

namespace Finding

/-- The names around the cycle. -/
def path (f : Finding) : String := " -> ".intercalate (f.journey.map (·.name))

/-- The node is one of those on the cycle. -/
def containsNode (f : Finding) (n : Node) : Bool :=
  f.loop.node.isSame n || f.journey.any fun r => r.node.isSame n

def containsDefinition (f : Finding) (definition : String) : Bool :=
  f.loop.definition == definition || f.journey.any fun r => r.definition == definition

/-- The finding for a cycle whose members are all known. -/
def ofCycle? (known : Table Reference) (cycle : Cycle) : Option Finding := do
  let journey ← cycle.members.mapM fun definition => (known.get? definition).map Reference.onCycle
  let loop ← journey.getLast?
  return ⟨journey, loop, cycle.depth⟩

/-- The findings for the cycles whose members are all known. -/
def ofCycles (known : Table Reference) (cycles : List Cycle) : List Finding :=
  cycles.filterMap (ofCycle? known)

end Finding

end DocRefs
