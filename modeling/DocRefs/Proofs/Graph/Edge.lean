import DocRefs.Graph

/-!
# Edges of a reference graph

The targets of every definition are in order, both ends of an edge are definitions, and a graph has
the edges that were added to it and no others, whatever the order.
-/
namespace DocRefs.Graph

theorem row_of_mem_targets {g : Graph} {source target : String} (edge : g.Edge source target) :
    ∃ row ∈ g.rows, row.1 = source ∧ g.targets source = row.2 := by
  unfold Edge targets at edge
  cases found : g.rows.lookup source with
  | none => simp [found] at edge
  | some targets =>
    obtain ⟨before, after, split, _⟩ := List.lookup_eq_some_iff.mp found
    exact ⟨(source, targets), by simp [split], rfl, by simp [Graph.targets, found]⟩

theorem targets_ordered (g : Graph) (definition : String) :
    (g.targets definition).Pairwise (· < ·) := by
  cases none_or : g.targets definition with
  | nil => exact List.Pairwise.nil
  | cons target rest =>
    have edge : g.Edge definition target := by simp [Edge, none_or]
    obtain ⟨row, member, _, same⟩ := row_of_mem_targets edge
    rw [← none_or, same]
    exact (g.linked row member).1

theorem source_defined {g : Graph} {source target : String} (edge : g.Edge source target) :
    source ∈ g.definitions := by
  obtain ⟨row, member, rfl, _⟩ := row_of_mem_targets edge
  exact List.mem_map_of_mem member

theorem target_defined {g : Graph} {source target : String} (edge : g.Edge source target) :
    target ∈ g.definitions := by
  obtain ⟨row, member, _, same⟩ := row_of_mem_targets edge
  exact (g.linked row member).2 target (same ▸ edge)

/-! ### Graphs under construction -/

theorem lookup_update {definition : String} {change : List String → List String} (key : String)
    {rows : List (String × List String)} (ordered : InOrder rows) :
    (update definition change rows).lookup key =
      if key = definition then some (change ((rows.lookup definition).getD []))
      else rows.lookup key := by
  induction rows with
  | nil =>
    by_cases same : key = definition
    · simp [update, same]
    · simp [update, same, List.lookup_cons, beq_false_of_ne same]
  | cons row rest ih =>
    obtain ⟨d, targets⟩ := row
    obtain ⟨least, ordered_rest⟩ := List.pairwise_cons.mp ordered
    unfold update
    split
    next same =>
      subst same
      by_cases found : key = definition
      · simp [found]
      · simp [List.lookup_cons, beq_false_of_ne found, found]
    next differ =>
      split
      next below =>
        have absent : ((d, targets) :: rest).lookup definition = none := by
          refine List.lookup_eq_none_iff.mpr fun row member => ?_
          simp only [bne_iff_ne, ne_eq]
          rintro rfl
          rcases List.mem_cons.mp member with rfl | later
          · exact differ rfl
          · have above := least row.1 (List.mem_map_of_mem later)
            exact String.lt_irrefl _ (String.lt_trans below above)
        by_cases found : key = definition
        · simp [found, absent]
        · rw [List.lookup_cons, beq_false_of_ne found]
          simp [found]
      next =>
        rw [List.lookup_cons, List.lookup_cons, ih ordered_rest]
        by_cases first : key = d
        · subst first
          have other : ¬ key = definition := fun same => differ same.symm
          simp [other]
        · simp [beq_false_of_ne first, List.lookup_cons, beq_false_of_ne differ]

theorem edge_addDefinition (g : Graph) (definition source target : String) :
    (g.addDefinition definition).Edge source target ↔ g.Edge source target := by
  simp only [Edge, targets, addDefinition, lookup_update source g.ordered, id_eq]
  split
  next same => simp [same]
  next => rfl

theorem edge_addEdge (g : Graph) (a b source target : String) :
    (g.addEdge a b).Edge source target ↔ (source = a ∧ target = b) ∨ g.Edge source target := by
  have kept := edge_addDefinition g b source target
  simp only [Edge, targets] at kept
  simp only [Edge, targets, addEdge, lookup_update source (g.addDefinition b).ordered]
  split
  next same =>
    subst same
    simp [Text.mem_insertSorted, kept]
  next other => simp [other, kept]

theorem mem_definitions_addDefinition {g : Graph} {definition d : String} :
    d ∈ (g.addDefinition definition).definitions ↔ d = definition ∨ d ∈ g.definitions :=
  mem_keys_update

theorem mem_definitions_addEdge {g : Graph} {source target d : String} :
    d ∈ (g.addEdge source target).definitions ↔ d = source ∨ d = target ∨ d ∈ g.definitions := by
  rw [← mem_definitions_addDefinition]
  exact mem_keys_update

end DocRefs.Graph
