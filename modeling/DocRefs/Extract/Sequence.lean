import DocRefs.Extract.Buildable
import DocRefs.Extract.Gather

/-!
# Extracting sequences

One value for each element of the sequence under a label. References are followed to their end, for
the sequence as for its elements.
-/
namespace DocRefs

/-- Values built from the elements of a sequence, in order. -/
structure ExtractedSequence (ρ : Type) where
  items : List (FromNode ρ) := []
  key : Option Node := none
  node : Option Node := none
  deriving Repr, Inhabited

/-- Builds a value from an element of a sequence under `key`. -/
def buildElement {ρ : Type} [Buildable ρ] (setting : Setting) (key element : Node) :
    Except RefError (FromNode ρ × Option RefError) := do
  let entry ← Entry.chase setting element.resolveAlias .inArray
  return (← entry.buildFromNode (some key), entry.circular)

/-- The sequence at the end of a way to it. A reference may lead to a mapping that has the sequence
under the label. -/
def sequenceAt (label : String) (entry : Entry) : Except RefError Node :=
  if entry.node.isSequence then .ok entry.node
  else
    let nested := if entry.reference.isSome then entry.node.findKey? label else none
    match (nested.map fun (_, value) => value.resolveAlias).filter Node.isSequence with
    | some inner => .ok inner
    | none => .error (.notAnArray entry.node.position)

/-- Builds a value from each element of the sequence under a label. -/
def extractSequence {ρ : Type} [Buildable ρ] (setting : Setting) (label : String) (n : Node) :
    Except RefError (Partial (ExtractedSequence ρ)) :=
  match n.resolveAlias.labelled? label with
  | none => .ok (.ok {})
  | some (key, node) => do
    let entry ← Entry.chase setting node .inArray
    let sequence ← sequenceAt label entry
    -- The elements are read where the sequence is, which may be another document.
    let outcomes := sequence.items.map (buildElement entry.setting key)
    return ⟨⟨Outcome.built outcomes, some key, some sequence⟩,
      Outcome.error? entry.circular outcomes⟩

end DocRefs
