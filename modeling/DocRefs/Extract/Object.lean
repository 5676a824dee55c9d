import DocRefs.Extract.Buildable

/-!
# Extracting objects

One value, built from a node or from what stands under a label. A label that is missing gives an
empty result and no error.
-/
namespace DocRefs

/-- A built value with the pointer that it was reached through. -/
structure RawObject (ρ : Type) where
  value : ρ
  reference : Option String := none
  deriving Repr, Inhabited

/-- Builds a value from a node, or from what it refers to. -/
def extractObjectFrom {ρ : Type} [Buildable ρ] (setting : Setting) (key : Option Node) (n : Node) :
    Except RefError (Partial (RawObject ρ)) := do
  let entry ← Entry.resolve setting n.resolveAlias .inObject
  let value ← entry.build key
  return ⟨⟨value, entry.reference⟩, entry.circular⟩

/-- Builds a value from what stands under a label. -/
def extractObject {ρ : Type} [Buildable ρ] (setting : Setting) (label : String) (n : Node) :
    Except RefError (Partial (FromPair ρ)) :=
  match n.resolveAlias.labelled? label with
  | none => .ok (.ok { value := Buildable.initial })
  | some (key, node) => do
    let entry ← Entry.resolve setting node .inObject
    let value ← entry.build (some key)
    return ⟨⟨value, some key, some entry.node, entry.reference⟩, entry.circular⟩

end DocRefs
