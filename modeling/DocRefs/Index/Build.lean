import DocRefs.Index.Basic

/-!
# Building an index

The references of a document are mapped one by one. Those into the document itself lead to a place
or are unresolved; those into another document count only if that document is registered by then.
Cycles are looked for among the mapped references of the document itself: an edge leads from a
pointer to every mapped pointer that is written below its target.
-/
namespace DocRefs

/-- A mapping with a reference entry whose value is a scalar. -/
structure RefSite where
  node : Node
  key : Node
  value : Node
  deriving Repr, Inhabited

namespace RefSite

/-- The reference entry among the pairs of a mapping. -/
def ofMapping (n : Node) : List RefSite :=
  match n.findKey? referenceKey with
  | some (key, value) => if value.isScalar then [⟨n, key, value⟩] else []
  | none => []

mutual

/-- The references at or below a node in document order; keys and aliases are not entered. -/
def below : Node → List RefSite
  | .mapping info pairs => ofMapping (.mapping info pairs) ++ belowPairs pairs
  | .sequence _ items => belowItems items
  | .document _ root => below root
  | .scalar _ _ | .aliasTo _ _ => []

def belowPairs : List (Node × Node) → List RefSite
  | [] => []
  | (_, value) :: rest => below value ++ belowPairs rest

def belowItems : List Node → List RefSite
  | [] => []
  | item :: rest => below item ++ belowItems rest

end

/-- The site as a reference, in the document at a location. -/
def toReference (site : RefSite) (location : Option String) (base : Option Location.Url) :
    Reference where
  definition := Location.absolutePointer site.value.text location base
  raw := site.value.text
  name := lastName (Location.splitPointer site.value.text).2
  node := site.node
  key := some site.key

end RefSite

namespace Index

/-! ## Categories -/

/-- The entries of a category that have places, by their pointers. -/
def categoryTable? (catalog : Catalog) (category : LookupCategory) : Option (Table Reference) := do
  let holder ← catalog.places.get? category.pointer
  return Table.ofList <| holder.node.resolveAlias.pairs.filterMap fun (key, _) => do
    let entry ← catalog.places.get? (category.pointer ++ "/" ++ Fragment.escape key.text)
    return (entry.definition, entry)

/-- The tables by category; of two categories with one name the later counts. -/
def categoryTables (catalog : Catalog) (categories : List LookupCategory) :
    Table (Table Reference) :=
  Table.ofList <| categories.reverse.filterMap fun category =>
    (categoryTable? catalog category).map (category.name, ·)

/-! ## Mapped references -/

inductive SiteOutcome where
  | mapped (target : Reference)
  | unresolved
  /-- The reference leads into a document that is not registered. -/
  | external

/-- What a reference leads to. A target in the document itself takes the reference's pointer. -/
def outcome (catalog : Catalog) (registry : Option Registry) (site : Reference) : SiteOutcome :=
  let (document, fragment) := Location.splitPointer site.definition
  -- An empty pointer would name the whole document; as a reference it names nothing.
  if site.raw.isEmpty then .unresolved
  else if catalog.isLocal document then
    match catalog.find? fragment with
    | some target => .mapped { target with definition := site.definition }
    | none => .unresolved
  else match registry.bind (·.find? site.definition) with
    | some (_, target) => .mapped target
    | none => .external

def mappedOf (outcomes : List (Reference × SiteOutcome)) : Table Reference :=
  Table.ofList <| outcomes.reverse.filterMap fun (site, outcome) =>
    match outcome with
    | .mapped target => some (site.definition, target)
    | _ => none

def unresolvedOf (outcomes : List (Reference × SiteOutcome)) : List Reference :=
  outcomes.filterMap fun (site, outcome) =>
    match outcome with
    | .unresolved => some site
    | _ => none

/-! ## Cycles -/

/-- The mapped pointers that are written at or below a node. -/
def pointersBelow (catalog : Catalog) (base : Option Location.Url) (mapped : Table Reference)
    (n : Node) : List String :=
  (RefSite.below n).map (fun site =>
    Location.absolutePointer site.value.text catalog.location base) |>.filter mapped.contains

/-- The graph of the mapped references into the document itself. -/
def graph (catalog : Catalog) (base : Option Location.Url) (mapped : Table Reference) : Graph :=
  -- Targets in other documents have their references mapped by their own index.
  let own := mapped.entries.filter fun (definition, _) =>
    catalog.isLocal (Location.splitPointer definition).1
  own.foldl (fun g (definition, target) =>
    (pointersBelow catalog base mapped target.node).foldl (fun g pointer =>
      g.addEdge definition pointer) (g.addDefinition definition)) .empty

/-- The pointer is a member of a finding. -/
def isOnCycle (findings : List Finding) (definition : String) : Bool :=
  findings.any fun finding => finding.journey.any fun r => r.definition == definition

/-- The index of the document `root` at a location, as one of the documents of a registry or
alone. -/
def build (config : Config) (location : Option String) (registry : Option Registry)
    (root : Node) : Index :=
  let catalog := Catalog.ofDocument location root
  let sites := (RefSite.below root.unwrapDocument).map fun site =>
    site.toReference location config.baseUrl
  let outcomes := sites.map fun site => (site, outcome catalog registry site)
  let mapped := mappedOf outcomes
  let findings := Finding.ofCycles mapped (graph catalog config.baseUrl mapped).cycles
  let flagged (definition : String) (r : Reference) : Reference :=
    if isOnCycle findings definition then r.onCycle else r
  -- The findings keep their references as they were; only the tables show who is on a cycle.
  let mappedFlagged := mapped.mapValues flagged
  let isFlagged (definition : String) : Bool :=
    ((mappedFlagged.get? definition).map (·.circular)).getD false
  { catalog with
    config := config
    categories := categoryTables catalog config.categories
    sites := sites.map fun site => if isFlagged site.definition then site.onCycle else site
    mapped := mappedFlagged
    unresolved := unresolvedOf outcomes
    findings := findings
    registry := registry.map (·.key) }

/-- The index of a document alone. -/
def ofDocument (config : Config) (root : Node) : Index :=
  build config (config.specPath.map Location.normalize) none root

end Index

end DocRefs
