import DocRefs.Extract.Field
import DocRefs.Resolve

/-!
# Building values

A buildable type has fields, which are filled from the keys of a mapping, and a hook that does the
rest. Values are built in a setting: the index that the node belongs to, the context of its
references, and the registry to look for other documents in. A reference is followed first.
-/
namespace DocRefs

/-- Where a node is read. -/
structure Setting where
  registry : Registry
  index : Index
  context : Context := {}
  deriving Inhabited

class Buildable (ρ : Type) where
  initial : ρ
  fields : List (FieldBinding ρ) := []
  /-- Finishes a value from the node that it is built from and the key it was found under. -/
  build : Setting → (key : Option Node) → (node : Node) → ρ → Except RefError ρ
  /-- Takes note of the pointer that the node was reached through. -/
  setReference : (reference : String) → (key : Option Node) → ρ → ρ := fun _ _ value => value

/-- Builds a value from a node. -/
def buildValue {ρ : Type} [Buildable ρ] (setting : Setting) (key : Option Node) (n : Node) :
    Except RefError ρ := do
  let filled ← (populate Buildable.fields n Buildable.initial).toExcept
  Buildable.build setting key n filled

/-- A node to build from, with what is known about the way to it. -/
structure Entry where
  node : Node
  setting : Setting
  /-- The pointer that the node was reached through. -/
  reference : Option String := none
  /-- The cycle that the pointer leads into, where cycles are errors. -/
  circular : Option RefError := none
  deriving Inhabited

namespace Entry

/-- The node that a pointer led to. -/
def ofLocated (setting : Setting) (written : String) (located : Located) : Entry where
  node := located.node
  setting := { setting with index := located.index, context := located.context }
  reference := some written
  circular := located.circular

/-- The node, or what it refers to in one step of resolution. A failure is reported as `wrap`
says. -/
def resolve (setting : Setting) (n : Node) (wrap : RefError → RefError) : Except RefError Entry :=
  match n.refText? with
  | none => .ok { node := n, setting }
  | some written =>
    match locate setting.registry n setting.index setting.context with
    | .ok (some located) => .ok (ofLocated setting written located)
    | .ok none => .ok { node := n, setting }
    | .error e => .error (wrap e)

/-- The node, or what it refers to in the end. -/
def chase (setting : Setting) (n : Node) (wrap : RefError → RefError) : Except RefError Entry :=
  match n.refText? with
  | none => .ok { node := n, setting }
  | some written =>
    match DocRefs.chase setting.registry n setting.index setting.context 0 with
    | .ok (some located) => .ok (ofLocated setting written located)
    | .ok none => .ok { node := n, setting }
    | .error e => .error (wrap e)

/-- Builds a value from the node and lets it take note of the pointer. -/
def build {ρ : Type} [Buildable ρ] (entry : Entry) (key : Option Node) : Except RefError ρ := do
  let value ← buildValue entry.setting key entry.node
  return match entry.reference with
    | some reference => Buildable.setReference reference key value
    | none => value

/-- Builds a value together with where it comes from. -/
def buildFromNode {ρ : Type} [Buildable ρ] (entry : Entry) (key : Option Node) :
    Except RefError (FromNode ρ) :=
  return { value := ← entry.build key, node := some entry.node, reference := entry.reference }

end Entry

/-- The key and the value for a label. A reference stands for the value itself, under the key of its
reference entry. -/
def Node.labelled? (n : Node) (label : String) : Option (Node × Node) :=
  match n.refEntry? with
  | some (key, _) => some (key, n)
  | none => (n.findKey? label).map fun (key, value) => (key, value.resolveAlias)

end DocRefs
