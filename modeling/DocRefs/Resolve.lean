import DocRefs.Error
import DocRefs.Index.Build

/-!
# Resolution

Following references from node to node. Each hop makes the pointer absolute, asks the index for the
place, and goes on from there; a place on a cycle ends the walk. A pointer that no table answers is
searched for in the document that was asked. Walks are at most `maxHops` long.
-/
namespace DocRefs

/-- The most hops of a walk. -/
def maxHops : Nat := 100

/-- The document that is being read, if it is known. -/
structure Context where
  document : Option String := none
  deriving DecidableEq, Repr, Inhabited

/-- Where a reference leads. -/
structure Located where
  node : Node
  /-- The index of the document that the node is in. -/
  index : Index
  /-- The context for references below the node. -/
  context : Context
  /-- The absolute pointer of the last hop. -/
  pointer : String
  onCycle : Bool := false
  /-- The cycle as an error, where the index has them as errors. -/
  circular : Option RefError := none
  deriving Inhabited

/-- A place that an index knows a pointer to. -/
structure Answer where
  reference : Reference
  /-- The index of the place's document, if it is another one. -/
  owner : Option Index := none
  context : Context
  deriving Inhabited

namespace Index

/-- The place in another document that a pointer leads to. The index looks only in the registry that
it was made in. -/
def findElsewhere? (ix : Index) (registry : Registry) (pointer : String) : Option Answer :=
  if ix.registry = some registry.key then
    (registry.find? pointer).map fun (owner, reference) =>
      ⟨reference, some owner, ⟨some (Location.splitPointer pointer).1⟩⟩
  else none

/-- The place that an absolute pointer leads to. -/
def resolve? (ix : Index) (registry : Registry) (pointer : String) (context : Context) :
    Option Answer :=
  let (document, fragment) := Location.splitPointer pointer
  if ix.isLocal document then
    (ix.places.get? fragment).map fun reference => ⟨reference, none, context⟩
  else ix.findElsewhere? registry pointer

/-- The entry for a pointer in the first category that has one. -/
def findInCategories? (ix : Index) (pointer : String) : Option Reference :=
  ix.config.categories.findSome? fun category =>
    (ix.categories.get? category.name).bind (·.get? pointer)

/-- The place for a pointer: mapped references come first, then the categories, then all places.
Only pointers into the document itself are looked for in its tables. -/
def answer? (ix : Index) (registry : Registry) (pointer : String) (context : Context) :
    Option Answer :=
  let known :=
    if ix.isLocal (Location.splitPointer pointer).1 then
      (ix.mapped.get? pointer).or (ix.findInCategories? pointer)
    else none
  match known with
  | some reference => some ⟨reference, none, context⟩
  | none => ix.resolve? registry pointer context

/-- The absolute form of a pointer that is written in the document. -/
def absolute (ix : Index) (pointer : String) : String :=
  Location.absolutePointer pointer ix.location ix.config.baseUrl

/-- The first finding that a node belongs to: by the node itself, or by what its reference names. -/
def findingFor? (ix : Index) (n : Node) : Option Finding :=
  (ix.findings.find? (·.containsNode n)).or <| do
    let definition := ix.absolute (← n.refText?)
    ix.findings.find? (·.containsDefinition definition)

/-- The node, or the first reference below it, leads to a mapped place on a cycle. -/
def leadsToCycle (ix : Index) (n : Node) : Bool :=
  -- A node without reference of its own stands for the first reference below it.
  let written := n.refText?.or ((n.findKeyDeep? referenceKey).map fun (_, value) => value.text)
  (written.bind fun pointer => ix.mapped.get? (ix.absolute pointer)).any (·.circular)

def isCircular (ix : Index) (n : Node) : Bool := (ix.findingFor? n).isSome || ix.leadsToCycle n

/-- The node that a pointer's fragment names in the document, if it names one. -/
def search? (ix : Index) (pointer : String) : Option Node :=
  let path := Fragment.segments (Location.splitPointer pointer).2
  if path.isEmpty then none else ix.root.unwrapDocument.atSegments? path

/-- The absolute pointer of a reference that is read in a context. -/
def pointerIn (ix : Index) (context : Context) (written : String) : String :=
  Location.absolutePointer written (context.document.or ix.location) ix.config.baseUrl

/-- A place that a reference leads to. It is on a cycle if it is itself a reference that a finding
knows. -/
def arrive (ix : Index) (answer : Answer) (pointer : String) (written : Node) : Located :=
  let target := answer.reference.node
  let owner := answer.owner.getD ix
  let here : Located := { node := target, index := owner, context := answer.context, pointer }
  -- Only a target that is itself a reference can lead around in a circle.
  match if target.isRef then owner.findingFor? target else none with
  | none => here
  | some finding =>
    { here with
      onCycle := true
      circular := if owner.config.allowCircular then none
        else some (.circular finding.path written.position) }

/-- One hop from the text `written` of a reference. It also says whether the walk goes on: from a
place that a table knows, if that is a reference on no cycle. -/
def hop (ix : Index) (registry : Registry) (context : Context) (written : Node) :
    Except RefError (Located × Bool) :=
  if written.text.isEmpty then .error (.emptyReference written.position)
  else
    let pointer := ix.pointerIn context written.text
    match ix.answer? registry pointer context with
    | some answer =>
      let here := ix.arrive answer pointer written
      .ok (here, here.node.isRef && !here.onCycle)
    | none =>
      -- No table has the pointer, so its path is walked in the document that was asked.
      match ix.search? pointer with
      | some found => .ok ({ node := found, index := ix, context, pointer }, false)
      | none => .error (.notFound written.text written.position)

end Index

/-! ## Walks -/

/-- Follows a reference, and the references that it leads to, for at most so many hops. A node that
is no reference leads nowhere. -/
def locateWithin (registry : Registry) :
    Nat → Node → Index → Context → Except RefError (Option Located)
  | 0, n, _, _ => if n.isRef then .error .depthExceeded else .ok none
  | hops + 1, n, ix, context =>
    match n.refEntry? with
    | none => .ok none
    | some (_, written) =>
      match ix.hop registry context written with
      | .error e => .error e
      | .ok (here, true) => locateWithin registry hops here.node here.index here.context
      | .ok (here, false) => .ok (some here)

/-- Follows a reference. -/
def locate (registry : Registry) (n : Node) (ix : Index) (context : Context) :
    Except RefError (Option Located) :=
  locateWithin registry maxHops n ix context

/-- Follows a reference until no reference is left, for at most so many hops. -/
def chaseWithin (registry : Registry) :
    Nat → Node → Index → Context → Except RefError (Option Located)
  | 0, _, _, _ => .error .depthExceeded
  | hops + 1, n, ix, context => do
    match ← locateWithin registry (hops + 1) n ix context with
    | none => return none
    | some here =>
      if here.onCycle || !here.node.isRef then return some here
      -- A node that was found by its path may be a reference that no hop went on from.
      else chaseWithin registry hops here.node here.index here.context

/-- Follows a reference to its end, when `taken` hops have been taken already. -/
def chase (registry : Registry) (n : Node) (ix : Index) (context : Context) (taken : Nat) :
    Except RefError (Option Located) :=
  chaseWithin registry (maxHops - taken) n ix context

theorem locateWithin_of_not_ref (registry : Registry) (hops : Nat) {n : Node} (ix : Index)
    (context : Context) (plain : n.isRef = false) :
    locateWithin registry hops n ix context = .ok none := by
  cases hops with
  | zero => simp [locateWithin, plain]
  | succ hops =>
    have none_there : n.refEntry? = none := by simpa [Node.isRef] using plain
    simp [locateWithin, none_there]

end DocRefs
