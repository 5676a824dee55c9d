import DocRefs.Proofs.Index.Earlier
import DocRefs.Proofs.Index.Tables
import DocRefs.Proofs.Node.Rearranged

/-!
# Indexes of rearranged documents

Places and references are collected in document order, but the tables are looked up by text and the
graph keeps its definitions in order. So the index of a document with other orders of its pairs has
the counterparts of what the index of the document has (`firstMapped_rearranged`,
`findings_rearranged`, `get?_mapped_rearranged`), as long as no mapping has one key twice: of two
places with one fragment the first would count.
-/
namespace DocRefs

open scoped List

/-- A table is looked up alike in whatever order its pairs come, if their keys are different. -/
theorem lookup_of_perm_map {κ α β : Type} [DecidableEq κ] {f : α → β} {xs : List (κ × α)}
    {ys : List (κ × β)} (order : ys ~ xs.map (Prod.map id f)) (distinct : (xs.map (·.1)).Nodup)
    (key : κ) : ys.lookup key = (xs.lookup key).map f := by
  have keys : ys.map (·.1) ~ xs.map (·.1) := by
    have same := order.map (·.1)
    rwa [List.map_map] at same
  refine Option.ext fun value => ?_
  rw [← mem_iff_lookup (keys.nodup_iff.mpr distinct), order.mem_iff, List.mem_map,
    Option.map_eq_some_iff]
  constructor
  · rintro ⟨⟨k, v⟩, member, same⟩
    obtain ⟨rfl, rfl⟩ := Prod.mk.inj same
    exact ⟨v, (mem_iff_lookup distinct k v).mp member, rfl⟩
  · rintro ⟨v, found, rfl⟩
    exact ⟨(key, v), (mem_iff_lookup distinct key v).mpr found, rfl⟩

namespace Rearrangement

variable (r : Rearrangement)

def reference (x : Reference) : Reference :=
  { x with node := r.node x.node, key := x.key.map r.node }

def finding (f : Finding) : Finding :=
  { f with journey := f.journey.map r.reference, loop := r.reference f.loop }

def place (p : Place) : Place := ⟨p.fragment, r.node p.node, p.key.map r.node⟩

def site (s : RefSite) : RefSite := ⟨r.node s.node, r.node s.key, r.node s.value⟩

theorem toReference_site (s : RefSite) (location : Option String) (base : Option Location.Url) :
    (r.site s).toReference location base = r.reference (s.toReference location base) := by
  simp [RefSite.toReference, site, reference]

/-! ### Places -/

mutual

theorem places_below (fragment : String) (key : Option Node) : (n : Node) →
    Place.below fragment (key.map r.node) (r.node n) ~ (Place.below fragment key n).map r.place
  | .mapping info pairs => by
    rw [node, Place.below, Place.below, List.map_cons]
    apply List.Perm.cons
    refine .trans ?_ (places_belowPairs fragment pairs)
    rw [Place.belowPairs_eq, Place.belowPairs_eq]
    exact (r.orders info (r.nodePairs pairs)).flatMap_right _
  | .sequence info items => by
    rw [node, Place.below, Place.below, List.map_cons]
    exact (places_belowItems fragment 0 items).cons _
  | .scalar _ _ => .refl _
  | .document _ _ => .refl _
  | .aliasTo _ _ => .refl _

theorem places_belowPairs (fragment : String) : (pairs : List (Node × Node)) →
    Place.belowPairs fragment (r.nodePairs pairs) ~ (Place.belowPairs fragment pairs).map r.place
  | [] => .refl _
  | (key, value) :: rest => by
    rw [nodePairs, Place.belowPairs, Place.belowPairs, List.map_append, text_node]
    exact (places_below _ (some key) value).append (places_belowPairs fragment rest)

theorem places_belowItems (fragment : String) (position : Nat) : (items : List Node) →
    Place.belowItems fragment position (r.nodes items) ~
      (Place.belowItems fragment position items).map r.place
  | [] => .refl _
  | item :: rest => by
    rw [nodes, Place.belowItems, Place.belowItems, List.map_append]
    exact (places_below _ none item).append (places_belowItems fragment (position + 1) rest)

end

section Catalog

variable {location : Option String} {root : Node} (distinct : root.DistinctKeys)

include distinct

theorem get?_places (fragment : String) :
    (Catalog.ofDocument location (r.node root)).places.get? fragment =
      ((Catalog.ofDocument location root).places.get? fragment).map r.reference := by
  unfold Catalog.ofDocument
  dsimp only
  rw [Table.get?_ofList, Table.get?_ofList, ← node_unwrapDocument]
  -- No two places have one fragment, so it does not matter which of them comes first.
  apply lookup_of_perm_map
  · have order := r.places_below "" none root.unwrapDocument
    have rows := order.map fun place : Place =>
      (place.fragment, Reference.ofPlace location place.fragment place.node place.key)
    rwa [List.map_map] at rows ⊢
  · have content := distinct.of_reaches (Node.reaches_unwrapDocument root)
    rw [List.map_map]
    exact Place.nodup_below "" none root.unwrapDocument content

theorem find?_catalog (fragment : String) :
    (Catalog.ofDocument location (r.node root)).find? fragment =
      ((Catalog.ofDocument location root).find? fragment).map r.reference := by
  have content := distinct.of_reaches (Node.reaches_unwrapDocument root)
  have walked := r.atSegments?_node content (Fragment.segments fragment)
  rw [Catalog.find?_eq, Catalog.find?_eq, r.get?_places distinct, Option.map_or, Node.atFragment?,
    ← node_unwrapDocument, walked, Option.map_map, Node.atFragment?, Option.map_map]
  rfl

end Catalog

/-! ### References of the document -/

theorem values_node (n : Node) : (r.node n).values ~ n.values.map r.node := by
  cases n with
  | mapping info pairs =>
    have order := (r.pairs_node (.mapping info pairs)).map (·.2)
    rw [List.map_map] at order
    change (r.node (.mapping info pairs)).pairs.map (·.2) ~ (pairs.map (·.2)).map r.node
    rw [List.map_map]
    exact order
  | sequence info items => exact .of_eq (r.nodes_eq items)
  | _ => exact .refl _

theorem site?_node {n : Node} (distinct : (n.pairs.map (·.1.text)).Nodup) :
    (r.node n).site? = n.site?.map r.site := by
  unfold Node.site?
  rw [r.findKey?_node distinct]
  rcases n.findKey? referenceKey with _ | ⟨key, value⟩
  · rfl
  · simp only [Option.map_some, pair, isScalar_node]
    split <;> rfl

theorem sites_below {n : Node} (distinct : n.DistinctKeys) :
    RefSite.below (r.node n) ~ (RefSite.below n).map r.site := by
  induction n using Node.induction_values with
  | step n ih =>
    rw [RefSite.below_eq_values, RefSite.below_eq_values, List.map_append, List.map_flatMap,
      r.site?_node distinct.here]
    refine .append (.of_eq (by cases n.site? <;> rfl)) ?_
    -- The values change places, and what is below each of them does.
    refine ((r.values_node n).flatMap_right RefSite.below).trans ?_
    rw [List.flatMap_map]
    refine List.Perm.flatMap_left _ fun v member => ih v member ?_
    exact distinct.of_reaches (Node.reaches_of_mem_values member)

end Rearrangement

namespace Index

variable {config : Config} {location : Option String} {root : Node} (r : Rearrangement)
  (distinct : root.DistinctKeys)

include distinct

theorem firstSites_rearranged : firstSites config location (r.node root) ~
    (firstSites config location root).map r.reference := by
  have content := distinct.of_reaches (Node.reaches_unwrapDocument root)
  have order := (r.sites_below content).map (·.toReference location config.baseUrl)
  rw [List.map_map] at order
  rw [firstSites, firstSites, ← r.node_unwrapDocument, List.map_map]
  exact order.trans (.of_eq (List.map_congr_left fun site _ => r.toReference_site site _ _))

/-! ### What they lead to -/

theorem firstMapped_rearranged (pointer : String) :
    (firstMapped config location none (r.node root)).get? pointer =
      ((firstMapped config location none root).get? pointer).map r.reference := by
  have written : (∃ first ∈ firstSites config location (r.node root),
        first.definition = pointer ∧ first.raw.isEmpty = false) ↔
      ∃ first ∈ firstSites config location root,
        first.definition = pointer ∧ first.raw.isEmpty = false := by
    simp only [(firstSites_rearranged r distinct).mem_iff, List.mem_map,
      exists_exists_and_eq_and]
    rfl
  -- What a pointer is mapped to depends on where it leads, not on the site that it was read from.
  refine Option.ext fun target => ?_
  rw [get?_firstMapped_iff, written, Option.map_eq_some_iff]
  simp only [get?_firstMapped_iff, r.find?_catalog distinct, Option.map_eq_some_iff]
  constructor
  · rintro ⟨listed, inside, _, ⟨place, found, rfl⟩, rfl⟩
    exact ⟨_, ⟨listed, inside, place, found, rfl⟩, rfl⟩
  · rintro ⟨_, ⟨listed, inside, place, found, rfl⟩, rfl⟩
    exact ⟨listed, inside, _, ⟨place, found, rfl⟩, rfl⟩

theorem distinctKeys_of_firstMapped {pointer : String} {target : Reference}
    (found : (firstMapped config location none root).get? pointer = some target) :
    target.node.DistinctKeys := by
  obtain ⟨_, _, place, there, rfl⟩ := get?_firstMapped_iff.mp found
  have reached := Catalog.reaches_of_find? there
  exact distinct.of_reaches reached

theorem mem_pointersBelow_rearranged {n : Node} (below : n.DistinctKeys) (pointer : String) :
    pointer ∈ pointersBelow (Catalog.ofDocument location (r.node root)) config.baseUrl
        (firstMapped config location none (r.node root)) (r.node n) ↔
      pointer ∈ pointersBelow (Catalog.ofDocument location root) config.baseUrl
        (firstMapped config location none root) n := by
  rw [mem_pointersBelow, mem_pointersBelow, firstMapped_rearranged r distinct]
  apply and_congr
  · simp only [(r.sites_below below).mem_iff, List.mem_map, exists_exists_and_eq_and,
      Rearrangement.site, Rearrangement.text_node]
    rfl
  · simp [← Option.isSome_iff_exists]

/-! ### Cycles -/

theorem cycles_rearranged : (build config location none (r.node root)).references.cycles =
    (build config location none root).references.cycles := by
  let own (d : String) : Bool :=
    (Catalog.ofDocument location root).isLocal (Location.splitPointer d).1
  have sources (document : Node) (d e : String)
      (edge : (build config location none document).references.Edge d e) : own d = true :=
    (edge_references_iff.mp edge).1
  -- The search goes by the definitions and edges of a graph, not by how it was put together.
  refine Graph.cycles_congr ?_ ?_ (sources (r.node root)) (sources root)
  · intro d inside
    have inside_too : (Catalog.ofDocument location (r.node root)).isLocal
        (Location.splitPointer d).1 = true := inside
    rw [references_build, references_build, mem_definitions_graph inside,
      mem_definitions_graph inside_too, firstMapped_rearranged r distinct]
    simp [← Option.isSome_iff_exists]
  · intro d e _ _
    rw [edge_references_iff, edge_references_iff, firstMapped_rearranged r distinct]
    refine and_congr Iff.rfl ?_
    simp only [Option.map_eq_some_iff]
    constructor
    · rintro ⟨_, ⟨target, found, rfl⟩, below⟩
      have there := distinctKeys_of_firstMapped distinct found
      exact ⟨target, found, (mem_pointersBelow_rearranged r distinct there e).mp below⟩
    · rintro ⟨target, found, below⟩
      have there := distinctKeys_of_firstMapped distinct found
      exact ⟨_, ⟨target, found, rfl⟩, (mem_pointersBelow_rearranged r distinct there e).mpr below⟩

omit distinct in
theorem ofCycle?_rearranged {known other : Table Reference}
    (same : ∀ d, other.get? d = (known.get? d).map r.reference) (c : Cycle) :
    Finding.ofCycle? other c = (Finding.ofCycle? known c).map r.finding := by
  have journey (members : List String) :
      members.mapM (fun d => (other.get? d).map Reference.onCycle) =
        (members.mapM fun d => (known.get? d).map Reference.onCycle).map (·.map r.reference) := by
    induction members with
    | nil => rfl
    | cons d rest ih =>
      rw [List.mapM_cons, List.mapM_cons, same, ih]
      cases known.get? d with
      | none => rfl
      | some first => cases rest.mapM fun d => (known.get? d).map Reference.onCycle <;> rfl
  rw [Finding.ofCycle?, Finding.ofCycle?, journey]
  cases c.members.mapM fun d => (known.get? d).map Reference.onCycle with
  | none => rfl
  | some references =>
    simp only [Option.map_some, Option.bind_eq_bind, Option.bind_some, List.getLast?_map]
    cases references.getLast? <;> rfl

theorem findings_rearranged : (build config location none (r.node root)).findings =
    (build config location none root).findings.map r.finding := by
  rw [findings_build, findings_build, cycles_rearranged r distinct, Finding.ofCycles,
    Finding.ofCycles, List.map_filterMap]
  exact List.filterMap_congr fun c _ => ofCycle?_rearranged r (firstMapped_rearranged r distinct) c

omit distinct in
theorem definitions_finding (f : Finding) :
    (r.finding f).journey.map (·.definition) = f.journey.map (·.definition) := by
  rw [Rearrangement.finding, List.map_map]
  rfl

theorem get?_mapped_rearranged (pointer : String) :
    (build config location none (r.node root)).mapped.get? pointer =
      ((build config location none root).mapped.get? pointer).map r.reference := by
  have flagged : isOnCycle (build config location none (r.node root)).findings pointer =
      isOnCycle (build config location none root).findings pointer := by
    rw [findings_rearranged r distinct]
    simp [isOnCycle, Rearrangement.finding, Rearrangement.reference, Function.comp_def]
  have entry (document : Node) : (build config location none document).mapped.get? pointer =
      ((firstMapped config location none document).get? pointer).map fun target =>
        if isOnCycle (build config location none document).findings pointer then target.onCycle
        else target := by
    rw [mapped_build, Table.get?_mapValues]
  -- The mark of a cycle is put on by definition, and the findings have the same definitions.
  rw [entry, entry, flagged, firstMapped_rearranged r distinct, Option.map_map, Option.map_map]
  generalize isOnCycle (build config location none root).findings pointer = on
  cases on <;> rfl

theorem unresolved_rearranged : (build config location none (r.node root)).unresolved ~
    (build config location none root).unresolved.map r.reference := by
  have leads (site : Reference) :
      leadsNowhere (Catalog.ofDocument location (r.node root)) (r.reference site) =
        leadsNowhere (Catalog.ofDocument location root) site := by
    rw [leadsNowhere, leadsNowhere, r.find?_catalog distinct, Option.isNone_map]
    rfl
  rw [unresolved_build, unresolved_build]
  refine ((firstSites_rearranged r distinct).filter _).trans (.of_eq ?_)
  rw [List.filter_map]
  exact congrArg _ (List.filter_congr fun site _ => leads site)

end Index

end DocRefs
