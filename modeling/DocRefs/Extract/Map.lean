import DocRefs.Extract.Buildable
import DocRefs.Extract.Gather
import DocRefs.Node.Merge
import DocRefs.OrderedMap

/-!
# Extracting maps

One value for each entry of a mapping, in document order and with merge keys replaced. Entries whose
keys are extensions are left out unless they are asked for. The first spelling of a key gives it its
place, the last one its value.
-/
namespace DocRefs

/-- Values built from the entries of a mapping. -/
structure ExtractedMap (ρ : Type) where
  entries : OrderedMap (FromKey String) (FromNode ρ) := .empty
  key : Option Node := none
  node : Option Node := none
  deriving Inhabited

namespace ExtractedMap

variable {ρ : Type}

def keys (m : ExtractedMap ρ) : List String := m.entries.keys.map (·.value)

def get? (m : ExtractedMap ρ) (key : String) : Option (FromNode ρ) :=
  m.entries.get? { value := key }

/-- The value under a key, or else under the first key that equals it up to ASCII case. -/
def find? (m : ExtractedMap ρ) (key : String) : Option (FromNode ρ) :=
  (m.get? key).or <|
    (m.entries.toList.find? fun (k, _) => Text.equalFold k.value key).map fun (_, value) => value

end ExtractedMap

/-- Builds a value from an entry of a mapping. -/
def buildEntry {ρ : Type} [Buildable ρ] (setting : Setting) (key value : Node) :
    Except RefError ((FromKey String × FromNode ρ) × Option RefError) := do
  let entry ← Entry.resolve setting value.resolveAlias .inMap
  let built ← entry.buildFromNode (some key)
  return (({ value := key.text, node := some key }, built), entry.circular)

/-- The pairs of a mapping that values are built from. -/
def keptPairs (mark : String) (extensions : Bool) (n : Node) : List (Node × Node) :=
  n.effectivePairs.filter fun (key, _) => extensions || !isMarkedKey mark key.text

/-- Builds a value from each entry at the end of a way to a mapping. -/
def buildEntries {ρ : Type} [Buildable ρ] (mark : String) (extensions : Bool) (key : Option Node)
    (entry : Entry) : Partial (ExtractedMap ρ) :=
  let outcomes := (keptPairs mark extensions entry.node).map fun (k, value) =>
    buildEntry entry.setting k value
  ⟨⟨OrderedMap.ofList (Outcome.built outcomes), key, some entry.node⟩,
    Outcome.error? entry.circular outcomes⟩

/-- Builds a value from each entry of a mapping, or of the mapping that a node refers to. -/
def extractMapFrom {ρ : Type} [Buildable ρ] (setting : Setting) (n : Node) (extensions : Bool) :
    Except RefError (Partial (ExtractedMap ρ)) := do
  let entry ← Entry.resolve setting n.resolveAlias.unwrapDocument .inMap
  return buildEntries setting.index.config.extensionPrefix extensions none entry

/-- Builds a value from each entry of the mapping under a label. -/
def extractMap {ρ : Type} [Buildable ρ] (setting : Setting) (label : String) (n : Node)
    (extensions : Bool) : Except RefError (Partial (ExtractedMap ρ)) :=
  match n.resolveAlias.labelled? label with
  | none => .ok (.ok {})
  | some (key, node) => do
    let entry ← Entry.resolve setting node .inMap
    if entry.node.isMapping then
      return buildEntries setting.index.config.extensionPrefix extensions (some key) entry
    else return ⟨⟨.empty, some key, some entry.node⟩, entry.circular⟩

end DocRefs
