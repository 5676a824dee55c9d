import DocRefs.Proofs.Graph.Cycle
import DocRefs.Proofs.Index.Mapped

/-!
# Findings of an index

Only mapped pointers into the document have edges in an index's graph, so every cycle that is
reported becomes a finding, and its journey holds what the members lead to under the same pointers.
Main result: `reported_iff_onFirstLoop`, which says of a pointer when it is in a journey and when
its mapped entry is flagged.
-/
namespace DocRefs

/-! ### Findings of known cycles -/

namespace Finding

theorem mapM_eq_some {α β : Type} {f : α → Option β} {g : α → β} {xs : List α}
    (known : ∀ x ∈ xs, f x = some (g x)) : xs.mapM f = some (xs.map g) := by
  induction xs with
  | nil => rfl
  | cons x xs ih =>
    obtain ⟨first, rest⟩ := List.forall_mem_cons.mp known
    simp [List.mapM_cons, first, ih rest]

/-- A cycle whose members are all known is a finding. -/
theorem ofCycle?_of_known {known : Table Reference} {c : Cycle} {entry : String → Reference}
    (all : ∀ d ∈ c.members, known.get? d = some (entry d)) (some_member : c.members ≠ []) :
    ∃ f, ofCycle? known c = some f ∧ f.journey = c.members.map fun d => (entry d).onCycle := by
  have journey : c.members.mapM (fun d => (known.get? d).map Reference.onCycle) =
      some (c.members.map fun d => (entry d).onCycle) :=
    mapM_eq_some fun d member => by rw [all d member]; rfl
  cases last : (c.members.map fun d => (entry d).onCycle).getLast? with
  | none => simp [some_member] at last
  | some loop => exact ⟨⟨_, loop, c.depth⟩, by simp [ofCycle?, journey, last], rfl⟩

theorem of_ofCycle? {known : Table Reference} {c : Cycle} {f : Finding}
    (found : ofCycle? known c = some f) :
    f.journey.getLast? = some f.loop ∧ f.depth = c.depth := by
  simp only [ofCycle?, Option.bind_eq_bind, Option.bind_eq_some_iff, Option.pure_def,
    Option.some.injEq] at found
  obtain ⟨journey, _, loop, last, rfl⟩ := found
  exact ⟨last, rfl⟩

theorem loop_mem_journey {known : Table Reference} {c : Cycle} {f : Finding}
    (found : ofCycle? known c = some f) : f.loop ∈ f.journey :=
  List.mem_of_getLast? (of_ofCycle? found).1

theorem containsNode_iff {f : Finding} (closed : f.loop ∈ f.journey) (n : Node) :
    f.containsNode n = true ↔ ∃ r ∈ f.journey, r.node.isSame n = true := by
  simp only [containsNode, Bool.or_eq_true, List.any_eq_true, or_iff_right_iff_imp]
  exact fun same => ⟨f.loop, closed, same⟩

theorem containsDefinition_iff {f : Finding} (closed : f.loop ∈ f.journey)
    (definition : String) :
    f.containsDefinition definition = true ↔ ∃ r ∈ f.journey, r.definition = definition := by
  simp only [containsDefinition, Bool.or_eq_true, List.any_eq_true, beq_iff_eq,
    or_iff_right_iff_imp]
  exact fun same => ⟨f.loop, closed, same⟩

end Finding

namespace Index

variable {config : Config} {location : Option String} {registry : Option Registry} {root : Node}

/-- The graph of what the references of a document lead to. -/
def references (ix : Index) : Graph := graph ix.toCatalog ix.config.baseUrl ix.mapped

/-- What the references of a document lead to, before cycles are looked for. -/
def firstMapped (config : Config) (location : Option String) (registry : Option Registry)
    (root : Node) : Table Reference :=
  let catalog := Catalog.ofDocument location root
  mappedOf <| ((RefSite.below root.unwrapDocument).map fun site =>
    site.toReference location config.baseUrl).map fun site => (site, outcome catalog registry site)

theorem mapped_build :
    (build config location registry root).mapped =
      (firstMapped config location registry root).mapValues fun pointer r =>
        if isOnCycle (build config location registry root).findings pointer then r.onCycle
        else r := rfl

theorem graph_mapValues (catalog : Catalog) (base : Option Location.Url)
    (mapped : Table Reference) (f : String → Reference → Reference)
    (same : ∀ d r, (f d r).node = r.node) :
    graph catalog base (mapped.mapValues f) = graph catalog base mapped := by
  have contains : (mapped.mapValues f).contains = mapped.contains := by
    funext pointer
    simp [Table.contains, Table.get?_mapValues]
  have pointers (n : Node) : pointersBelow catalog base (mapped.mapValues f) n =
      pointersBelow catalog base mapped n := by
    rw [pointersBelow, contains, pointersBelow]
  have entries : (mapped.mapValues f).entries =
      mapped.entries.map fun row => (row.1, f row.1 row.2) := rfl
  unfold graph
  simp only [pointers, entries, List.filter_map, List.foldl_map, same]
  rfl

theorem references_build :
    (build config location registry root).references =
      graph (Catalog.ofDocument location root) config.baseUrl
        (firstMapped config location registry root) := by
  rw [references, mapped_build]
  refine graph_mapValues _ _ _ _ fun d r => ?_
  split <;> rfl

theorem findings_build :
    (build config location registry root).findings =
      Finding.ofCycles (firstMapped config location registry root)
        (build config location registry root).references.cycles := by
  rw [references_build]
  rfl

/-! ### Places and what leads to them -/

theorem ofPlace_of_get? {fragment : String} {r : Reference}
    (found : (Catalog.ofDocument location root).places.get? fragment = some r) :
    ∃ node key, r = .ofPlace location fragment node key := by
  obtain ⟨place, _, same⟩ := List.mem_map.mp (Table.mem_of_get?_ofList found)
  obtain ⟨rfl, rfl⟩ := Prod.mk.inj same
  exact ⟨place.node, place.key, rfl⟩

theorem circular_of_find? {fragment : String} {r : Reference}
    (found : (Catalog.ofDocument location root).find? fragment = some r) :
    r.circular = false := by
  unfold Catalog.find? at found
  rcases Option.or_eq_some_iff.mp found with place | ⟨_, walked⟩
  · obtain ⟨node, key, rfl⟩ := ofPlace_of_get? place
    rfl
  · simp only [Option.bind_eq_bind, Option.bind_eq_some_iff] at walked
    obtain ⟨node, _, same⟩ := walked
    rw [← Option.some.inj same]
    rfl

theorem isLocal_build (document : String) :
    (build config location registry root).isLocal document =
      (Catalog.ofDocument location root).isLocal document := rfl

/-- A pointer into the document itself is mapped to a place of the document. -/
theorem firstMapped_local {pointer : String} {r : Reference}
    (inside : (build config location registry root).isLocal
      (Location.splitPointer pointer).1 = true)
    (found : (firstMapped config location registry root).get? pointer = some r) :
    r.definition = pointer ∧ r.circular = false ∧
      ∃ place, (build config location registry root).find? (Location.splitPointer pointer).2 =
        some place ∧ r.node = place.node := by
  have leads := (get?_mappedOf_iff.mp found).2
  rw [target?, if_pos (by rwa [← isLocal_build])] at leads
  obtain ⟨place, there, rfl⟩ := Option.map_eq_some_iff.mp leads
  have plain : place.circular = false := circular_of_find? there
  exact ⟨rfl, plain, place, there, rfl⟩

/-! ### Journeys -/

theorem edge_references_iff {source target : String} :
    (build config location registry root).references.Edge source target ↔
      (build config location registry root).isLocal (Location.splitPointer source).1 = true ∧
        ∃ r, (firstMapped config location registry root).get? source = some r ∧
          target ∈ pointersBelow (Catalog.ofDocument location root) config.baseUrl
            (firstMapped config location registry root) r.node := by
  rw [references_build, edge_graph_iff, isLocal_build]

/-- The finding of a reported cycle, with what its members lead to. -/
theorem journey_of_cycle {c : Cycle}
    (reported : c ∈ (build config location registry root).references.cycles) :
    ∃ f, Finding.ofCycle? (firstMapped config location registry root) c = some f ∧
      ∃ entry : String → Reference, f.journey = c.members.map (fun d => (entry d).onCycle) ∧
        ∀ d ∈ c.members, (firstMapped config location registry root).get? d = some (entry d) ∧
          (entry d).definition = d := by
  let entry (d : String) : Reference :=
    ((firstMapped config location registry root).get? d).getD default
  -- Every member has an edge, and only mapped pointers into the document have.
  have all : ∀ d ∈ c.members, (firstMapped config location registry root).get? d =
      some (entry d) ∧ (entry d).definition = d := by
    intro d member
    obtain ⟨target, edge⟩ := (Graph.mem_reported_iff _ _).mp ⟨c, reported, member⟩ |>.edge
    obtain ⟨inside, r, found, _⟩ := edge_references_iff.mp edge
    have same : entry d = r := by simp [entry, found]
    exact ⟨by rw [same, found], by rw [same, (firstMapped_local inside found).1]⟩
  have some_member : c.members ≠ [] := by
    have long := ((Graph.mem_cycles_iff _ _).mp reported).isCycle.long
    exact fun empty => by simp [empty] at long
  obtain ⟨f, found, journey⟩ :=
    Finding.ofCycle?_of_known (fun d member => (all d member).1) some_member
  exact ⟨f, found, entry, journey, all⟩

theorem loop_mem_of_mem_findings {f : Finding}
    (listed : f ∈ (build config location registry root).findings) : f.loop ∈ f.journey := by
  rw [findings_build] at listed
  obtain ⟨c, _, found⟩ := List.mem_filterMap.mp listed
  exact Finding.loop_mem_journey found

/-- What the journeys hold is what the pointers on first loops lead to. -/
theorem exists_journey_iff (P : Reference → Prop) :
    (∃ f ∈ (build config location registry root).findings, ∃ r ∈ f.journey, P r) ↔
      ∃ pointer, (build config location registry root).references.OnFirstLoop pointer ∧
        ∃ r, (firstMapped config location registry root).get? pointer = some r ∧
          P r.onCycle := by
  simp only [findings_build, ← Graph.mem_reported_iff]
  constructor
  · rintro ⟨f, member, r, on, holds⟩
    obtain ⟨c, reported, found⟩ := List.mem_filterMap.mp member
    obtain ⟨f', found', entry, journey, all⟩ := journey_of_cycle reported
    obtain rfl : f' = f := Option.some.inj (found'.symm.trans found)
    rw [journey] at on
    obtain ⟨d, there, rfl⟩ := List.mem_map.mp on
    exact ⟨d, ⟨c, reported, there⟩, entry d, (all d there).1, holds⟩
  · rintro ⟨pointer, ⟨c, reported, member⟩, r, leads, holds⟩
    obtain ⟨f, found, entry, journey, all⟩ := journey_of_cycle reported
    obtain rfl : entry pointer = r := Option.some.inj ((all pointer member).1.symm.trans leads)
    refine ⟨f, List.mem_filterMap.mpr ⟨c, reported, found⟩, (entry pointer).onCycle, ?_, holds⟩
    rw [journey]
    exact List.mem_map_of_mem member

theorem mem_journey_iff (pointer : String) :
    (∃ f ∈ (build config location registry root).findings, ∃ r ∈ f.journey,
        r.definition = pointer) ↔
      (build config location registry root).references.OnFirstLoop pointer := by
  rw [exists_journey_iff]
  constructor
  · rintro ⟨other, on, r, leads, rfl⟩
    obtain ⟨target, edge⟩ := on.edge
    have inside := (edge_references_iff.mp edge).1
    have same : r.definition = other := (firstMapped_local inside leads).1
    rwa [Reference.onCycle, same]
  · intro on
    obtain ⟨target, edge⟩ := on.edge
    obtain ⟨inside, r, leads, _⟩ := edge_references_iff.mp edge
    exact ⟨pointer, on, r, leads, (firstMapped_local inside leads).1⟩

theorem isOnCycle_iff (findings : List Finding) (pointer : String) :
    isOnCycle findings pointer = true ↔
      ∃ f ∈ findings, ∃ r ∈ f.journey, r.definition = pointer := by
  simp [isOnCycle]

/-- The mapped entry of a pointer into the document is flagged if the pointer is in a journey. -/
theorem flagged_iff (pointer : String) :
    ((build config location registry root).isLocal (Location.splitPointer pointer).1 = true ∧
        ∃ r, (build config location registry root).mapped.get? pointer = some r ∧
          r.circular = true) ↔
      (build config location registry root).references.OnFirstLoop pointer := by
  rw [← mem_journey_iff, ← isOnCycle_iff, mapped_build, Table.get?_mapValues]
  constructor
  · rintro ⟨inside, r, found, flagged⟩
    obtain ⟨first, there, rfl⟩ := Option.map_eq_some_iff.mp found
    -- Places are not flagged by themselves, so the flag is that of a finding.
    have plain := (firstMapped_local inside there).2.1
    by_contra off
    simp [off, plain] at flagged
  · intro on
    obtain ⟨target, edge⟩ := ((mem_journey_iff pointer).mp ((isOnCycle_iff _ _).mp on)).edge
    obtain ⟨inside, r, found, _⟩ := edge_references_iff.mp edge
    exact ⟨inside, r.onCycle, by rw [found, Option.map_some, if_pos on], rfl⟩

/-- A definition is reported as a member of a cycle exactly if it is on the first path to some
source, at or behind the target of an edge from there; on a cycle alone it need not be. The pointers
of an index are in journeys and are flagged exactly if they are such members of its graph. -/
theorem reported_iff_onFirstLoop (g : Graph) (definition : String) (config : Config)
    (location : Option String) (registry : Option Registry) (root : Node) (pointer : String) :
    let ix := build config location registry root
    ((∃ c ∈ g.cycles, definition ∈ c.members) ↔ g.OnFirstLoop definition) ∧
    ((∃ f ∈ ix.findings, ∃ r ∈ f.journey, r.definition = pointer) ↔
      ix.references.OnFirstLoop pointer) ∧
    ((ix.isLocal (Location.splitPointer pointer).1 = true ∧
        ∃ r, ix.mapped.get? pointer = some r ∧ r.circular = true) ↔
      ix.references.OnFirstLoop pointer) :=
  ⟨g.mem_reported_iff definition, mem_journey_iff pointer, flagged_iff pointer⟩

/-- Two cycles that share the edge from `B` to `A`. -/
def overlapping : Graph :=
  [("A", "B"), ("A", "C"), ("B", "A"), ("C", "B")].foldl
    (fun g (source, target) => g.addEdge source target) .empty

/-- `C` is on a cycle, but the only reported one is closed before `C` is met. -/
theorem unreported_on_cycle :
    Relation.TransGen overlapping.Edge "C" "C" ∧
      ¬ ∃ c ∈ overlapping.cycles, "C" ∈ c.members := by
  have first : overlapping.Edge "C" "B" := by decide
  have second : overlapping.Edge "B" "A" := by decide
  have third : overlapping.Edge "A" "C" := by decide
  exact ⟨((Relation.TransGen.single first).tail second).tail third, by decide⟩

end Index

end DocRefs
