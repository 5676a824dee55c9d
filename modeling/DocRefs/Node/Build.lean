import DocRefs.Node.Basic

/-!
# Building nodes

A builder draws a new identity for every node it makes, so no two nodes ever share one. A node may
be given a position, an anchor or a tag afterwards without becoming another node; a node that is
already in use elsewhere is copied first.
-/
namespace DocRefs

/-- A computation that may make nodes. The state is the next identity that is free. -/
abbrev Build := StateM NodeId

namespace Build

/-- An identity that no node has yet. -/
def freshId : Build NodeId :=
  modifyGet fun id => (id, ⟨id.number + 1⟩)

/-- Runs a builder from the first identity. -/
def runNew {α : Type} (b : Build α) : α := (b.run ⟨1⟩).1

/-- A scalar with a tag of its own. -/
def tagged (text tag : String) : Build Node :=
  return .scalar { id := ← freshId, tag } text

/-- A plain scalar, tagged by its spelling. -/
def scalar (text : String) : Build Node := tagged text (CoreTag.infer text)

/-- A scalar that is a string whatever it looks like. -/
def string (text : String) : Build Node := tagged text CoreTag.str

def sequence (items : List Node) : Build Node :=
  return .sequence { id := ← freshId, tag := CoreTag.seq } items

/-- A key as a mapping keeps it: a string `<<` becomes a merge key. -/
def mappingKey (key : Node) : Build Node := do
  if key.isScalar ∧ key.text = mergeKey ∧ key.tag = CoreTag.str then
    return .scalar { id := ← freshId, tag := CoreTag.merge, position := key.position } mergeKey
  else return key

def mapping (pairs : List (Node × Node)) : Build Node := do
  let pairs ← pairs.mapM fun (key, value) => return (← mappingKey key, value)
  return .mapping { id := ← freshId, tag := CoreTag.map } pairs

/-- An alias that stands for `target`. -/
def aliasTo (target : Node) : Build Node :=
  return .aliasTo { id := ← freshId, tag := target.tag } target

def document (root : Node) : Build Node :=
  return .document { id := ← freshId, tag := "" } root

/-- The node under an identity of its own. -/
def copy (n : Node) : Build Node :=
  return n.withInfo { n.info with id := ← freshId }

end Build

namespace Node

/-- The node at another place. -/
def place (n : Node) (position : Position) : Node := n.withInfo { n.info with position }

/-- The node with an anchor. -/
def anchored (n : Node) (anchor : String) : Node := n.withInfo { n.info with anchor := some anchor }

/-- The node with another tag. -/
def retagged (n : Node) (tag : String) : Node := n.withInfo { n.info with tag }

@[simp] theorem info_withInfo (n : Node) (info : NodeInfo) : (n.withInfo info).info = info := by
  cases n <;> rfl

@[simp] theorem id_place (n : Node) (position : Position) : (n.place position).id = n.id := by
  simp [place, id]

@[simp] theorem id_anchored (n : Node) (anchor : String) : (n.anchored anchor).id = n.id := by
  simp [anchored, id]

@[simp] theorem id_retagged (n : Node) (tag : String) : (n.retagged tag).id = n.id := by
  simp [retagged, id]

@[simp] theorem kind_withInfo (n : Node) (info : NodeInfo) : (n.withInfo info).kind = n.kind := by
  cases n <;> rfl

end Node

end DocRefs
