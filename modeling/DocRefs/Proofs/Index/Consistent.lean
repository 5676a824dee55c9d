import DocRefs.Proofs.Index.Registered
import DocRefs.Proofs.Index.Tables
import DocRefs.Proofs.Resolve.Route

/-!
# Findings, flags and the document

What an index says of cycles in its findings, its mapped references and its sites is one and the
same, and the document bears it out. Main result: `findings_consistent`. A cycle of the graph is a
finding because all its members are mapped (`journey_of_cycle`); an edge of the graph is a reference
that is written below its source's target.
-/
namespace DocRefs

namespace Index

/-- A scalar reference at or below the node has this pointer as its absolute form. -/
def Writes (ix : Index) (n : Node) (pointer : String) : Prop :=
  ∃ position site, n.siteAt? position = some site ∧ ix.absolute site.value.text = pointer

/-- The journey goes around: from every member to the next by a reference that is written there. -/
structure GoesAround (ix : Index) (f : Finding) : Prop where
  long : 2 ≤ f.journey.length
  first : f.journey.head?.map (·.definition) = some f.loop.definition
  last : f.journey.getLast?.map (·.definition) = some f.loop.definition
  chain : f.journey.IsChain fun a b => ix.Writes a.node b.definition

variable {config : Config} {location : Option String} {registry : Option Registry} {root : Node}

theorem writes_iff {n : Node} {pointer : String} :
    (build config location registry root).Writes n pointer ↔
      ∃ site ∈ RefSite.below n,
        Location.absolutePointer site.value.text location config.baseUrl = pointer := by
  simp only [RefSite.below_eq_listing, List.mem_filterMap]
  constructor
  · rintro ⟨position, site, found, same⟩
    obtain ⟨m, there, of_node⟩ := Option.bind_eq_some_iff.mp found
    exact ⟨site, ⟨(position, m), Node.mem_listing_iff.mpr there, of_node⟩, same⟩
  · rintro ⟨site, ⟨row, listed, of_node⟩, same⟩
    refine ⟨row.1, site, ?_, same⟩
    rw [Node.siteAt?, Node.mem_listing_iff.mp listed]
    exact of_node

/-! ### Journeys -/

theorem definitions_of_cycle {c : Cycle} {f : Finding}
    (reported : c ∈ (build config location registry root).references.cycles)
    (found : Finding.ofCycle? (firstMapped config location registry root) c = some f) :
    f.journey.map (·.definition) = c.members := by
  obtain ⟨f', found', entry, journey, all⟩ := journey_of_cycle reported
  obtain rfl : f' = f := Option.some.inj (found'.symm.trans found)
  rw [journey, List.map_map]
  exact (List.map_congr_left fun d member => (all d member).2).trans (List.map_id _)

theorem goesAround_of_mem_findings {f : Finding}
    (listed : f ∈ (build config location registry root).findings) :
    (build config location registry root).GoesAround f := by
  rw [findings_build] at listed
  obtain ⟨c, reported, found⟩ := List.mem_filterMap.mp listed
  obtain ⟨f', found', entry, journey, all⟩ := journey_of_cycle reported
  obtain rfl : f' = f := Option.some.inj (found'.symm.trans found)
  have cycle := ((Graph.mem_cycles_iff _ _).mp reported).isCycle
  have closes := (Finding.of_ofCycle? found).1
  have last : f'.journey.getLast?.map (·.definition) = some f'.loop.definition := by
    rw [closes]
    rfl
  constructor
  case long => simpa [journey] using cycle.long
  case last => exact last
  case first =>
    -- The cycle begins with the definition that it ends with.
    rw [← last, ← List.head?_map, ← List.getLast?_map, definitions_of_cycle reported found]
    exact cycle.closed
  case chain =>
    rw [journey, List.isChain_map]
    -- An edge was found among the references below what its source leads to.
    refine cycle.chain.imp_of_mem_imp fun a b here next edge => ?_
    obtain ⟨_, r, leads, below⟩ := edge_references_iff.mp edge
    obtain rfl : entry a = r := Option.some.inj ((all a here).1.symm.trans leads)
    obtain ⟨⟨site, written, same⟩, _⟩ := mem_pointersBelow.mp below
    exact writes_iff.mpr ⟨site, written, same.trans (all b next).2.symm⟩

/-- Every cycle of the graph is a finding, in the order in which they are found. -/
theorem journeys_eq : (build config location registry root).findings.map (fun f =>
      (f.journey.map (·.definition), f.depth)) =
    (build config location registry root).references.cycles.map fun c => (c.members, c.depth) := by
  -- By induction on a part of the cycles, since each one only needs to be reported itself.
  have each (cycles : List Cycle)
      (reported : cycles ⊆ (build config location registry root).references.cycles) :
      (Finding.ofCycles (firstMapped config location registry root) cycles).map (fun f =>
        (f.journey.map (·.definition), f.depth)) = cycles.map fun c => (c.members, c.depth) := by
    induction cycles with
    | nil => rfl
    | cons c rest ih =>
      obtain ⟨here, later⟩ := List.cons_subset.mp reported
      obtain ⟨f, found, _⟩ := journey_of_cycle here
      rw [Finding.ofCycles, List.filterMap_cons_some found, List.map_cons, List.map_cons,
        definitions_of_cycle here found, (Finding.of_ofCycle? found).2]
      exact congrArg _ (ih later)
  rw [findings_build]
  exact each _ (List.Subset.refl _)

/-! ### Flags -/

/-- Nothing that a pointer leads to is flagged before cycles are looked for. -/
theorem circular_of_target? (made : ∀ r, registry = some r → r.Made) {pointer : String}
    {target : Reference}
    (leads : target? (Catalog.ofDocument location root) registry pointer = some target) :
    target.circular = false := by
  unfold target? at leads
  split at leads
  · obtain ⟨place, there, rfl⟩ := Option.map_eq_some_iff.mp leads
    have plain : place.circular = false := circular_of_find? there
    exact plain
  · obtain ⟨⟨owner, place⟩, found, rfl⟩ := Option.map_eq_some_iff.mp leads
    obtain ⟨r, known, there⟩ := Option.bind_eq_some_iff.mp found
    obtain ⟨indexed, placed⟩ := Registry.find?_eq_some_iff.mp there
    -- The catalogue of a registered document is that of its tree.
    have catalogue : ∃ other tree, owner.toCatalog = Catalog.ofDocument other tree := by
      rcases Registry.get?_of_indexAt? indexed with exact' | normal
      · obtain ⟨tree, _, _, rfl⟩ := (made r known).indexes exact'
        exact ⟨_, tree, rfl⟩
      · obtain ⟨tree, _, _, rfl⟩ := (made r known).indexes normal
        exact ⟨_, tree, rfl⟩
    obtain ⟨other, tree, same⟩ := catalogue
    rw [same] at placed
    exact circular_of_find? placed

theorem circular_mapped_iff (made : ∀ r, registry = some r → r.Made) {definition : String}
    {r : Reference}
    (found : (build config location registry root).mapped.get? definition = some r) :
    r.circular = true ↔ ∃ f ∈ (build config location registry root).findings, ∃ m ∈ f.journey,
      m.definition = definition := by
  rw [mapped_build, Table.get?_mapValues] at found
  obtain ⟨first, leads, rfl⟩ := Option.map_eq_some_iff.mp found
  -- Before cycles are looked for nothing is flagged, so the flag is that of a finding.
  have plain := circular_of_target? made (get?_mappedOf_iff.mp leads).2
  rw [← isOnCycle_iff]
  split
  next on => simp [on, Reference.onCycle]
  next off => simp [off, plain]

theorem definition_mapped {definition : String} {r : Reference}
    (found : (build config location registry root).mapped.get? definition = some r)
    (inside : (build config location registry root).isLocal
      (Location.splitPointer definition).1 = true) : r.definition = definition := by
  rw [mapped_build, Table.get?_mapValues] at found
  obtain ⟨first, leads, rfl⟩ := Option.map_eq_some_iff.mp found
  have own := (firstMapped_local inside leads).1
  split
  · exact own
  · exact own

theorem sites_flagged : (build config location registry root).sites =
    (firstSites config location root).map fun site =>
      if (((build config location registry root).mapped.get? site.definition).map
        (·.circular)).getD false then site.onCycle else site := rfl

theorem circular_site_iff {site : Reference}
    (member : site ∈ (build config location registry root).sites) :
    site.circular = true ↔ ∃ r,
      (build config location registry root).mapped.get? site.definition = some r ∧
        r.circular = true := by
  rw [sites_flagged] at member
  obtain ⟨first, listed, rfl⟩ := List.mem_map.mp member
  obtain ⟨written, _, rfl⟩ := List.mem_map.mp listed
  -- Sites are written without a flag, so a flag comes from the mapped table.
  have plain := written.circular_toReference location config.baseUrl
  split
  next on =>
    cases found : (build config location registry root).mapped.get?
        (written.toReference location config.baseUrl).definition with
    | none => simp [found] at on
    | some r =>
      have flagged : r.circular = true := by simpa [found] using on
      simp [Reference.onCycle, found, flagged]
  next off =>
    simp only [plain, Bool.false_eq_true, false_iff]
    rintro ⟨r, found, flagged⟩
    simp [found, flagged] at off

/-- A node whose own reference is mapped to a flagged place is on a cycle itself. -/
theorem isCircular_of_circular_site {site : Reference}
    (member : site ∈ (build config location registry root).sites) (flagged : site.circular = true) :
    (build config location registry root).isCircular site.node = true := by
  obtain ⟨r, found, on⟩ := (circular_site_iff member).mp flagged
  obtain ⟨written, listed, first⟩ :=
    List.mem_map.mp ((mem_firstSites_iff registry).mpr ⟨site, member, rfl⟩)
  have node : written.node = site.node := congrArg Reference.node first
  have definition : (build config location registry root).absolute written.value.text =
      site.definition := congrArg Reference.definition first
  -- The node's reference entry is the one that the site was found by.
  have reads : site.node.refText? = some written.value.text := by
    rw [← node, Node.refText?, (RefSite.faithful_of_mem_below _ listed).entry]
    rfl
  have leads : (build config location registry root).leadsToCycle site.node = true := by
    simp [leadsToCycle, reads, definition, found, on]
  simp [isCircular, leads]

/-- An index of a document alone or in a registry that documents have been added to.

- The journey of a finding has two members at least, begins and ends with the definition where it
  closes, and goes from member to member by references that are written below their nodes.
- The findings are the cycles of the graph, in the same order; none is dropped.
- What is mapped is flagged exactly if its definition is in a journey; inside the document its
  definition is the one that it is mapped under.
- A site is flagged exactly if what its definition is mapped to is, and then its node is on a
  cycle. -/
theorem findings_consistent (config : Config) (location : Option String)
    (registry : Option Registry) (made : ∀ r, registry = some r → r.Made) (root : Node) :
    let ix := build config location registry root
    (∀ f ∈ ix.findings, ix.GoesAround f) ∧
    ix.findings.map (fun f => (f.journey.map (·.definition), f.depth)) =
      ix.references.cycles.map (fun c => (c.members, c.depth)) ∧
    (∀ definition r, ix.mapped.get? definition = some r →
      (r.circular = true ↔ ∃ f ∈ ix.findings, ∃ m ∈ f.journey, m.definition = definition) ∧
      (ix.isLocal (Location.splitPointer definition).1 = true → r.definition = definition)) ∧
    (∀ site ∈ ix.sites, (site.circular = true ↔
      ∃ r, ix.mapped.get? site.definition = some r ∧ r.circular = true)) ∧
    ∀ site ∈ ix.sites, site.circular = true → ix.isCircular site.node = true := by
  refine ⟨fun f => goesAround_of_mem_findings, journeys_eq, fun definition r found => ?_,
    fun site => circular_site_iff, fun site => isCircular_of_circular_site⟩
  exact ⟨circular_mapped_iff made found, definition_mapped found⟩

/-- Two schemas that refer to each other, one from outside their cycle, and one that refers to
another document. -/
def household : Node := Build.runNew do
  Build.object [
    ("owner", Build.object [("pets", Build.reference "#/pet")]),
    ("pet", Build.object [("owner", Build.reference "#/owner")]),
    ("entry", Build.reference "#/pet"),
    ("vet", Build.reference "people.yaml#/vet")]

theorem findings_consistent_household :
    let people := Registry.ofDocuments
      [("/specs/people.yaml", Build.runNew (Build.object [("vet", Build.string "Dr")]))]
    let ix := build {} (some "/specs/api.yaml") (some people) household
    ix.findings.map (fun f => f.journey.map (·.name)) = [["owner", "pet", "owner"]] ∧
      ix.mapped.keys.length = 3 ∧
      ix.sites.map (fun site => (site.raw, site.circular)) =
        [("#/pet", true), ("#/owner", true), ("#/pet", true), ("people.yaml#/vet", false)] ∧
      (∀ f ∈ ix.findings, ix.GoesAround f) ∧
      ∀ site ∈ ix.sites, site.circular = true → ix.isCircular site.node = true := by
  intro people ix
  have made : ∀ r, some people = some r → r.Made := by
    rintro _ ⟨rfl⟩
    exact Registry.made_ofDocuments _
  obtain ⟨around, _, _, _, onCycle⟩ :=
    findings_consistent {} (some "/specs/api.yaml") (some people) made household
  exact ⟨by decide +kernel, by decide +kernel, by decide +kernel, around, onCycle⟩

end Index

end DocRefs
