import DocRefs.Index.Build
import DocRefs.Proofs.Graph.Edge
import Mathlib.Tactic.Tauto

/-!
# Mapped references and their graph

What a reference leads to depends on its pointer alone, so the table of mapped references says of a
pointer what it leads to (`get?_mappedOf_iff`), and the graph has an edge from a pointer into the
document to every mapped pointer that is written at or below its target (`edge_graph_iff`).
-/
namespace DocRefs

/-! ### Sites -/

namespace RefSite

/-- The site is what its own node says. -/
def Faithful (site : RefSite) : Prop :=
  ∃ info pairs, site.node = .mapping info pairs ∧ site ∈ ofMapping site.node

theorem faithful_of_mem_ofMapping {site : RefSite} {info : NodeInfo} {pairs : List (Node × Node)}
    (member : site ∈ ofMapping (.mapping info pairs)) : site.Faithful := by
  have same : site.node = .mapping info pairs := by
    unfold ofMapping at member
    split at member
    · split at member
      · rw [List.mem_singleton.mp member]
      · simp at member
    · simp at member
  exact ⟨info, pairs, same, same ▸ member⟩

mutual

theorem faithful_of_mem_below {site : RefSite} :
    (n : Node) → site ∈ below n → site.Faithful
  | .mapping info pairs, member => by
    rw [below] at member
    rcases List.mem_append.mp member with own | deeper
    · exact faithful_of_mem_ofMapping own
    · exact faithful_of_mem_belowPairs pairs deeper
  | .sequence _ items, member => by
    rw [below] at member
    exact faithful_of_mem_belowItems items member
  | .document _ root, member => by
    rw [below] at member
    exact faithful_of_mem_below root member
  | .scalar _ _, member => by simp [below] at member
  | .aliasTo _ _, member => by simp [below] at member

theorem faithful_of_mem_belowPairs {site : RefSite} :
    (pairs : List (Node × Node)) → site ∈ belowPairs pairs → site.Faithful
  | [], member => by simp [belowPairs] at member
  | (_, value) :: rest, member => by
    rw [belowPairs] at member
    rcases List.mem_append.mp member with first | later
    · exact faithful_of_mem_below value first
    · exact faithful_of_mem_belowPairs rest later

theorem faithful_of_mem_belowItems {site : RefSite} :
    (items : List Node) → site ∈ belowItems items → site.Faithful
  | [], member => by simp [belowItems] at member
  | item :: rest, member => by
    rw [belowItems] at member
    rcases List.mem_append.mp member with first | later
    · exact faithful_of_mem_below item first
    · exact faithful_of_mem_belowItems rest later

end

theorem Faithful.mem_below {site : RefSite} (faithful : site.Faithful) :
    site ∈ below site.node := by
  obtain ⟨info, pairs, same, member⟩ := faithful
  rw [same] at member ⊢
  rw [below]
  exact List.mem_append_left _ member

theorem Faithful.findKey? {site : RefSite} (faithful : site.Faithful) :
    site.node.findKey? referenceKey = some (site.key, site.value) ∧ site.value.isScalar = true := by
  obtain ⟨info, pairs, -, member⟩ := faithful
  unfold ofMapping at member
  split at member
  next key value found =>
    split at member
    next scalar =>
      have same := List.mem_singleton.mp member
      rw [same] at found ⊢
      exact ⟨found, scalar⟩
    · simp at member
  · simp at member

/-- The node of a site is read as a reference with the site's key and value. -/
theorem Faithful.entry {site : RefSite} (faithful : site.Faithful) :
    site.node.refEntry? = some (site.key, site.value) := by
  obtain ⟨found, scalar⟩ := faithful.findKey?
  obtain ⟨info, pairs, mapping, _⟩ := faithful
  have plain : site.value.isAlias = false := by
    simp_all [Node.isScalar, Node.isAlias]
  have own : site.node.resolveAlias = site.node := by
    rw [mapping]
    exact Node.resolveAlias_of_not_alias rfl
  have entry : site.node.pairs.find? (fun pair => pair.1.text = referenceKey) =
      some (site.key, site.value) := found
  simp [Node.refEntry?, own, entry, Node.resolveAlias_of_not_alias plain]

end RefSite

namespace Index

/-! ### The table of mapped references -/

/-- What a pointer leads to, in the document itself or in a registered one. -/
def target? (catalog : Catalog) (registry : Option Registry) (pointer : String) :
    Option Reference :=
  if catalog.isLocal (Location.splitPointer pointer).1 then
    (catalog.find? (Location.splitPointer pointer).2).map fun target =>
      { target with definition := pointer }
  else (registry.bind (·.find? pointer)).map (·.2)

theorem outcome_eq_mapped_iff {catalog : Catalog} {registry : Option Registry}
    {site target : Reference} :
    outcome catalog registry site = .mapped target ↔
      site.raw.isEmpty = false ∧ target? catalog registry site.definition = some target := by
  unfold outcome target?
  dsimp only
  split
  next empty => simp [empty]
  next written =>
    have written : site.raw.isEmpty = false := by simpa using written
    split
    · cases found : catalog.find? (Location.splitPointer site.definition).2 <;>
        simp [written]
    · cases found : registry.bind (·.find? site.definition) with
      | none => simp
      | some entry => simp [written]

theorem get?_mappedOf_iff {catalog : Catalog} {registry : Option Registry}
    {sites : List Reference} {pointer : String} {target : Reference} :
    (mappedOf (sites.map fun site => (site, outcome catalog registry site))).get? pointer =
        some target ↔
      (∃ site ∈ sites, site.definition = pointer ∧ site.raw.isEmpty = false) ∧
        target? catalog registry pointer = some target := by
  have entry {r : Reference} (found : (mappedOf (sites.map fun site =>
      (site, outcome catalog registry site))).get? pointer = some r) :
      (∃ site ∈ sites, site.definition = pointer ∧ site.raw.isEmpty = false) ∧
        target? catalog registry pointer = some r := by
    have member := Table.mem_of_get?_ofList found
    obtain ⟨⟨site, reached⟩, there, same⟩ := List.mem_filterMap.mp member
    obtain ⟨site', listed, pair⟩ := List.mem_map.mp (List.mem_reverse.mp there)
    obtain ⟨rfl, rfl⟩ : site' = site ∧ outcome catalog registry site' = reached := by
      simpa using pair
    cases mapped : outcome catalog registry site' with
    | mapped target =>
      obtain ⟨rfl, rfl⟩ : site'.definition = pointer ∧ target = r := by simpa [mapped] using same
      obtain ⟨written, leads⟩ := outcome_eq_mapped_iff.mp mapped
      exact ⟨⟨site', listed, rfl, written⟩, leads⟩
    | unresolved => simp [mapped] at same
    | external => simp [mapped] at same
  refine ⟨entry, ?_⟩
  rintro ⟨⟨site, listed, rfl, written⟩, leads⟩
  -- Whichever site gave the entry, it leads where its pointer does, and that is this pointer.
  cases found : (mappedOf (sites.map fun site =>
      (site, outcome catalog registry site))).get? site.definition with
  | some r => rw [← (entry found).2, leads]
  | none =>
    rw [mappedOf, Table.get?_ofList, List.lookup_eq_none_iff] at found
    have mapped := outcome_eq_mapped_iff.mpr ⟨written, leads⟩
    have absent := found (site.definition, target) <| by
      refine List.mem_filterMap.mpr ⟨(site, .mapped target), ?_, rfl⟩
      exact List.mem_reverse.mpr (List.mem_map.mpr ⟨site, listed, by rw [mapped]⟩)
    simp at absent

/-! ### The graph -/

theorem edge_addEdges (g : Graph) (definition : String) (pointers : List String)
    (source target : String) :
    (pointers.foldl (fun g pointer => g.addEdge definition pointer) g).Edge source target ↔
      g.Edge source target ∨ source = definition ∧ target ∈ pointers := by
  induction pointers generalizing g with
  | nil => simp
  | cons pointer rest ih =>
    rw [List.foldl_cons, ih, Graph.edge_addEdge, List.mem_cons]
    tauto

theorem edge_graph_iff {catalog : Catalog} {base : Option Location.Url} {mapped : Table Reference}
    {source target : String} :
    (graph catalog base mapped).Edge source target ↔
      catalog.isLocal (Location.splitPointer source).1 = true ∧
        ∃ r, mapped.get? source = some r ∧ target ∈ pointersBelow catalog base mapped r.node := by
  -- One row after another adds the edges from its own pointer.
  have added (rows : List (String × Reference)) (g : Graph) :
      (rows.foldl (fun g row => (pointersBelow catalog base mapped row.2.node).foldl
        (fun g pointer => g.addEdge row.1 pointer) (g.addDefinition row.1)) g).Edge
          source target ↔ g.Edge source target ∨
        ∃ r, (source, r) ∈ rows ∧ target ∈ pointersBelow catalog base mapped r.node := by
    induction rows generalizing g with
    | nil => simp
    | cons row rest ih =>
      obtain ⟨definition, r⟩ := row
      rw [List.foldl_cons, ih, edge_addEdges, Graph.edge_addDefinition]
      constructor
      · rintro ((old | ⟨rfl, below⟩) | ⟨other, later, below⟩)
        · exact .inl old
        · exact .inr ⟨r, by simp, below⟩
        · exact .inr ⟨other, List.mem_cons_of_mem _ later, below⟩
      · rintro (old | ⟨other, member, below⟩)
        · exact .inl (.inl old)
        · rcases List.mem_cons.mp member with same | later
          · obtain ⟨rfl, rfl⟩ : source = definition ∧ other = r := by simpa using same
            exact .inl (.inr ⟨rfl, below⟩)
          · exact .inr ⟨other, later, below⟩
  have nothing : ¬ Graph.empty.Edge source target := by
    simp [Graph.Edge, Graph.targets, Graph.empty]
  rw [graph, added]
  simp only [nothing, false_or, List.mem_filter, Table.mem_entries_iff]
  constructor
  · rintro ⟨r, ⟨found, inside⟩, below⟩
    exact ⟨inside, r, found, below⟩
  · rintro ⟨inside, r, found, below⟩
    exact ⟨r, ⟨found, inside⟩, below⟩

theorem mem_pointersBelow {catalog : Catalog} {base : Option Location.Url}
    {mapped : Table Reference} {n : Node} {pointer : String} :
    pointer ∈ pointersBelow catalog base mapped n ↔
      (∃ site ∈ RefSite.below n,
        Location.absolutePointer site.value.text catalog.location base = pointer) ∧
      ∃ r, mapped.get? pointer = some r := by
  simp [pointersBelow, Table.contains, Option.isSome_iff_exists]

end Index

end DocRefs
