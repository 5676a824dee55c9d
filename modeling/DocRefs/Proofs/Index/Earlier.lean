import DocRefs.Proofs.Graph.Leaf
import DocRefs.Proofs.Index.Finding

/-!
# Indexes built at different times

When a document is indexed only some of the other documents are there. Its mapped references tell
which, but nothing that is asked about the document itself does. Main results: `findings_eq` and
`mapped_eq`. References into other documents have no targets in the graph, so the cycles are the
same (`cycles_eq`), and so are their members.
-/
namespace DocRefs.Index

variable {catalog : Catalog} {base : Option Location.Url} {mapped : Table Reference}
  {config : Config} {location : Option String} {root : Node}

theorem ofCycle?_congr {known others : Table Reference} {c : Cycle}
    (same : ∀ d ∈ c.members, known.get? d = others.get? d) :
    Finding.ofCycle? known c = Finding.ofCycle? others c := by
  have journey (members : List String) (same : ∀ d ∈ members, known.get? d = others.get? d) :
      members.mapM (fun d => (known.get? d).map Reference.onCycle) =
        members.mapM fun d => (others.get? d).map Reference.onCycle := by
    induction members with
    | nil => rfl
    | cons d rest ih =>
      obtain ⟨first, later⟩ := List.forall_mem_cons.mp same
      rw [List.mapM_cons, List.mapM_cons, first, ih later]
  rw [Finding.ofCycle?, Finding.ofCycle?, journey c.members same]

/-! ### Definitions of the graph -/

theorem mem_definitions_addEdges {g : Graph} {definition : String} {pointers : List String}
    (known : definition ∈ g.definitions) (d : String) :
    d ∈ (pointers.foldl (fun g pointer => g.addEdge definition pointer) g).definitions ↔
      d ∈ g.definitions ∨ d ∈ pointers := by
  induction pointers generalizing g with
  | nil => simp
  | cons pointer rest ih =>
    rw [List.foldl_cons, ih (Graph.mem_definitions_addEdge.mpr (.inl rfl)),
      Graph.mem_definitions_addEdge, List.mem_cons]
    constructor
    · rintro ((rfl | rfl | old) | later)
      · exact .inl known
      · exact .inr (.inl rfl)
      · exact .inl old
      · exact .inr (.inr later)
    · tauto

/-- Among the pointers into the document itself the mapped ones are definitions. -/
theorem mem_definitions_graph {d : String}
    (inside : catalog.isLocal (Location.splitPointer d).1 = true) :
    d ∈ (graph catalog base mapped).definitions ↔ ∃ r, mapped.get? d = some r := by
  have added (rows : List (String × Reference)) (g : Graph) :
      d ∈ (rows.foldl (fun g row => (pointersBelow catalog base mapped row.2.node).foldl
        (fun g pointer => g.addEdge row.1 pointer) (g.addDefinition row.1)) g).definitions ↔
          d ∈ g.definitions ∨
            ∃ row ∈ rows, d = row.1 ∨ d ∈ pointersBelow catalog base mapped row.2.node := by
    induction rows generalizing g with
    | nil => simp
    | cons row rest ih =>
      rw [List.foldl_cons, ih,
        mem_definitions_addEdges (Graph.mem_definitions_addDefinition.mpr (.inl rfl)),
        Graph.mem_definitions_addDefinition, List.exists_mem_cons_iff]
      simp only [or_assoc, or_left_comm]
  have nothing : d ∉ Graph.empty.definitions := by simp [Graph.definitions, Graph.empty]
  rw [graph, added]
  simp only [nothing, false_or, List.mem_filter]
  constructor
  · rintro ⟨row, ⟨member, _⟩, rfl | below⟩
    · exact ⟨row.2, (mapped.mem_entries_iff row.1 row.2).mp member⟩
    · exact (mem_pointersBelow.mp below).2
  · rintro ⟨r, found⟩
    exact ⟨(d, r), ⟨(mapped.mem_entries_iff d r).mpr found, inside⟩, .inl rfl⟩

/-! ### Whatever is there -/

variable (earlier other : Option Registry)

theorem firstMapped_eq {pointer : String} (inside : (Catalog.ofDocument location root).isLocal
      (Location.splitPointer pointer).1 = true) :
    (firstMapped config location earlier root).get? pointer =
      (firstMapped config location other root).get? pointer := by
  refine Option.ext fun r => ?_
  rw [firstMapped, firstMapped, get?_mappedOf_iff, get?_mappedOf_iff, target?, target?,
    if_pos inside, if_pos inside]

theorem cycles_eq : (build config location earlier root).references.cycles =
    (build config location other root).references.cycles := by
  let own (d : String) : Bool :=
    (Catalog.ofDocument location root).isLocal (Location.splitPointer d).1
  have sources (registry : Option Registry) (d e : String)
      (edge : (build config location registry root).references.Edge d e) : own d = true :=
    (edge_references_iff.mp edge).1
  refine Graph.cycles_congr ?_ ?_ (sources earlier) (sources other)
  · intro d inside
    rw [references_build, references_build, mem_definitions_graph inside,
      mem_definitions_graph inside, firstMapped_eq earlier other inside]
  · intro d e inside inside_e
    rw [edge_references_iff, edge_references_iff, firstMapped_eq earlier other inside]
    simp only [mem_pointersBelow, firstMapped_eq earlier other inside_e]
    rfl

/-- The members of a cycle are pointers into the document itself. -/
theorem isLocal_of_mem_cycle {registry : Option Registry} {c : Cycle} {d : String}
    (reported : c ∈ (build config location registry root).references.cycles)
    (member : d ∈ c.members) :
    (Catalog.ofDocument location root).isLocal (Location.splitPointer d).1 = true := by
  obtain ⟨target, edge⟩ := ((Graph.mem_reported_iff _ d).mp ⟨c, reported, member⟩).edge
  exact (edge_references_iff.mp edge).1

theorem findings_eq : (build config location earlier root).findings =
    (build config location other root).findings := by
  rw [findings_build, findings_build, ← cycles_eq earlier other, Finding.ofCycles,
    Finding.ofCycles]
  refine List.filterMap_congr fun c reported => ?_
  exact ofCycle?_congr fun d member =>
    firstMapped_eq earlier other (isLocal_of_mem_cycle reported member)

theorem mapped_eq {pointer : String} (inside : (Catalog.ofDocument location root).isLocal
      (Location.splitPointer pointer).1 = true) :
    (build config location earlier root).mapped.get? pointer =
      (build config location other root).mapped.get? pointer := by
  rw [mapped_build, mapped_build, Table.get?_mapValues, Table.get?_mapValues,
    firstMapped_eq earlier other inside, findings_eq earlier other]

end DocRefs.Index
