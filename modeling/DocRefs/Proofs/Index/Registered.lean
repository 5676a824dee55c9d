import DocRefs.Registry

/-!
# Registered documents

A registry is made by adding documents one after another. Whatever is added later, the index under a
location has that location, which is a normal form, and looks for other documents in this registry
(`Registry.Made.registered`).
-/
namespace DocRefs

theorem Registry.addDocument_eq_ok {r next : Registry} {location : String} {root : Node}
    {ix : Index} (added : r.addDocument location root = .ok (next, ix)) :
    next = { r with documents := r.documents.insert (Location.normalize location) ix } ∧
      ix.location = some (Location.normalize location) ∧ ix.registry = some r.key := by
  unfold addDocument at added
  split at added
  · simp at added
  · obtain ⟨rfl, rfl⟩ := Prod.mk.inj (Except.ok.inj added)
    exact ⟨rfl, rfl, rfl⟩

/-- The index is that of a document of the registry, built when some others were there. -/
def Registry.Indexes (r : Registry) (location : String) (root : Node) (ix : Index) : Prop :=
  ∃ earlier : Registry, earlier.key = r.key ∧
    ix = Index.build { r.config with specPath := some location } (some location) (some earlier) root

theorem Registry.indexes_of_addDocument {r next : Registry} {location : String} {root : Node}
    {ix : Index} (added : r.addDocument location root = .ok (next, ix)) :
    r.Indexes (Location.normalize location) root ix := by
  unfold addDocument at added
  split at added
  · simp at added
  · obtain ⟨_, rfl⟩ := Prod.mk.inj (Except.ok.inj added)
    exact ⟨r, rfl, rfl⟩

/-- A registry that documents have been added to. -/
inductive Registry.Made : Registry → Prop
  | new (key : RegistryKey) (config : Config) : Made { key, config }
  | add {r next : Registry} {location : String} {root : Node} {ix : Index} (made : Made r)
    (added : r.addDocument location root = .ok (next, ix)) : Made next

/-- What the index under a location says of itself. -/
structure Registry.Registered (r : Registry) (location : String) (ix : Index) : Prop where
  place : ix.location = some location
  member : ix.registry = some r.key
  normal : ∃ given, Location.normalize given = location

theorem Registry.Made.registered {r : Registry} (made : r.Made) {location : String} {ix : Index}
    (there : r.documents.get? location = some ix) : r.Registered location ix := by
  induction made with
  | new key config => simp at there
  | add _ added ih =>
    obtain ⟨rfl, place, member⟩ := Registry.addDocument_eq_ok added
    rw [Table.get?_insert] at there
    split at there
    next same =>
      obtain rfl := Option.some.inj there
      exact ⟨same ▸ place, member, _, same.symm⟩
    · obtain ⟨place, member, normal⟩ := ih there
      exact ⟨place, member, normal⟩

/-- The index under a location is that of a document. -/
theorem Registry.Made.indexes {r : Registry} (made : r.Made) {location : String} {ix : Index}
    (there : r.documents.get? location = some ix) : ∃ root, r.Indexes location root ix := by
  induction made with
  | new key config => simp at there
  | @add earlier _ _ root _ _ added ih =>
    have indexes := Registry.indexes_of_addDocument added
    obtain ⟨rfl, _, _⟩ := Registry.addDocument_eq_ok added
    rw [Table.get?_insert] at there
    split at there
    next same =>
      obtain rfl := Option.some.inj there
      exact ⟨root, same ▸ indexes⟩
    · exact ih there

/-- The registry with a document, if that can be added. -/
def Registry.withDocument (r : Registry) (document : String × Node) : Registry :=
  ((r.addDocument document.1 document.2).map (·.1)).toOption.getD r

theorem Registry.Made.withDocument {r : Registry} (made : r.Made) (document : String × Node) :
    (r.withDocument document).Made := by
  unfold Registry.withDocument
  cases added : r.addDocument document.1 document.2 with
  | error e => exact made
  | ok pair => exact .add made added

/-- A registry of the documents that can be added one after another. -/
def Registry.ofDocuments (documents : List (String × Node)) : Registry :=
  documents.foldl withDocument { key := ⟨0⟩ }

theorem Registry.made_ofDocuments (documents : List (String × Node)) :
    (ofDocuments documents).Made :=
  List.foldlRecOn documents withDocument (.new ⟨0⟩ {}) fun _ made document _ =>
    made.withDocument document

end DocRefs
