import DocRefs.Proofs.Resolve.Order

/-!
# Lookup categories

Main result: `walks_under_other_categories`. The tables of the categories only save work. An index
with other categories has the same references, findings and places, and what a category has for a
pointer is the place that is found without it (`Index.alike_withCategories`). So the walks in two
registries whose configurations differ in their categories run side by side.
-/
namespace DocRefs

def Config.withCategories (c : Config) (categories : List LookupCategory) : Config :=
  { c with categories }

theorem Index.alike_withCategories (config : Config) (categories : List LookupCategory)
    (given : Option String) (earlier other : Option Registry) (root : Node) :
    (build config (given.map Location.normalize) earlier root).Alike
      (build (config.withCategories categories) (given.map Location.normalize) other root) where
  catalog := rfl
  baseUrl := rfl
  -- Neither what is mapped nor what is on a cycle depends on the categories.
  mapped _ inside := mapped_eq earlier other inside
  listed pointer inside := by
    have left := listed?_build inside
    have right : (build (config.withCategories categories) (given.map Location.normalize) other
      root).listed? pointer = _ := listed?_build inside
    rw [left, right]
    rfl
  findings := findings_eq earlier other

namespace Registry

/-- The indexes are of one document, under configurations that differ at most in their categories.
They were made alone, or in registries of which both or neither are the given ones, whatever other
documents were there by then. -/
inductive Counterparts (r other : Registry) : Index → Index → Prop
  | alone (config : Config) (categories : List LookupCategory) (root : Node) :
    Counterparts r other (.ofDocument config root)
      (.ofDocument (config.withCategories categories) root)
  | among (config : Config) (categories : List LookupCategory) (given : Option String)
    (root : Node) {earlier earlier' : Registry}
    (own : earlier.key = r.key ↔ earlier'.key = other.key) :
    Counterparts r other (.build config (given.map Location.normalize) (some earlier) root)
      (.build (config.withCategories categories) (given.map Location.normalize) (some earlier')
        root)

namespace Counterparts

variable {r other : Registry} {a b : Index}

theorem alike (pair : r.Counterparts other a b) : a.Alike b := by
  cases pair with
  | alone config categories root => exact Index.alike_withCategories config categories _ _ _ root
  | among config categories given root => exact Index.alike_withCategories config categories _ _ _ _

theorem policy (pair : r.Counterparts other a b) :
    a.config.allowCircular = b.config.allowCircular := by
  cases pair <;> rfl

theorem member (pair : r.Counterparts other a b) :
    a.registry = some r.key ↔ b.registry = some other.key := by
  cases pair with
  | alone => simp [Index.ofDocument, Index.build]
  | among config categories given root own => simpa [Index.build] using own

theorem of_keys {s t : Registry} (pair : r.Counterparts other a b) (left : s.key = r.key)
    (right : t.key = other.key) : s.Counterparts t a b := by
  cases pair with
  | alone config categories root => exact .alone config categories root
  | among config categories given root own =>
    exact .among config categories given root (by rwa [left, right])

end Counterparts

/-! ### Registries side by side -/

/-- The configurations differ at most in their categories, and under every location there are
counterparts in both registries or nothing in either. -/
structure Parallel (r other : Registry) : Prop where
  config : ∃ categories, other.config = r.config.withCategories categories
  documents : ∀ location,
    Option.Rel (r.Counterparts other) (r.documents.get? location) (other.documents.get? location)

theorem withDocument_eq (r : Registry) (location : String) (root : Node) :
    r.withDocument (location, root) =
      if location.toList.all Text.isBlank then r
      else
        let place := Location.normalize location
        let ix := Index.build { r.config with specPath := some place } (some place) (some r) root
        { r with documents := r.documents.insert place ix } := by
  unfold withDocument addDocument
  split <;> rfl

theorem Parallel.withDocument {r other : Registry} (parallel : r.Parallel other)
    (document : String × Node) :
    (r.withDocument document).Parallel (other.withDocument document) := by
  obtain ⟨location, root⟩ := document
  obtain ⟨categories, differ⟩ := parallel.config
  rw [withDocument_eq, withDocument_eq]
  split
  · exact parallel
  · refine ⟨⟨categories, differ⟩, fun place => ?_⟩
    dsimp only
    rw [Table.get?_insert, Table.get?_insert]
    split
    · -- The location is in normal form, as that of any index is.
      rw [differ]
      apply Option.Rel.some
      exact .among { r.config with specPath := some (Location.normalize location) } categories
        (some location) root (iff_of_true rfl rfl)
    · -- What was there before stays, and registries keep their keys.
      have before := parallel.documents place
      generalize r.documents.get? place = x at before ⊢
      generalize other.documents.get? place = y at before ⊢
      cases before with
      | none => exact .none
      | some pair => exact .some (pair.of_keys rfl rfl)

theorem Parallel.withDocuments {r other : Registry} (parallel : r.Parallel other)
    (documents : List (String × Node)) :
    (documents.foldl Registry.withDocument r).Parallel
      (documents.foldl Registry.withDocument other) := by
  induction documents generalizing r other with
  | nil => exact parallel
  | cons document rest ih => exact ih (parallel.withDocument document)

theorem Parallel.mirror {r other : Registry} (parallel : r.Parallel other) :
    Mirror (r.Counterparts other) r other where
  alike := Counterparts.alike
  member := Counterparts.member
  documents := parallel.documents

theorem Parallel.indexRoot {r other : Registry} (parallel : r.Parallel other) (root : Node) :
    r.Counterparts other (r.indexRoot root) (other.indexRoot root) := by
  obtain ⟨categories, differ⟩ := parallel.config
  rw [Registry.indexRoot, Registry.indexRoot, differ]
  exact .among r.config categories r.config.specPath root (iff_of_true rfl rfl)

end Registry

/-- The same documents are registered under two configurations that differ in their categories, and
others are indexed alone or as root documents. From the two indexes of any of them, each reference
leads to the same place, or fails with the same error. -/
theorem walks_under_other_categories (key key' : RegistryKey) (config : Config)
    (categories : List LookupCategory) (documents : List (String × Node)) :
    let r := documents.foldl Registry.withDocument { key, config }
    let other := documents.foldl Registry.withDocument
      { key := key', config := config.withCategories categories }
    (∀ location, Option.Rel (r.Counterparts other) (r.documents.get? location)
      (other.documents.get? location)) ∧
    (∀ root, r.Counterparts other (r.indexRoot root) (other.indexRoot root)) ∧
    ∀ a b, r.Counterparts other a b → ∀ n context taken,
      Alongside (Option.Rel Located.Same) (locate r n a context) (locate other n b context) ∧
      Alongside (Option.Rel Located.Same) (chase r n a context taken)
        (chase other n b context taken) := by
  intro r other
  have parallel : r.Parallel other :=
    Registry.Parallel.withDocuments ⟨⟨categories, rfl⟩, fun _ => .none⟩ documents
  refine ⟨parallel.documents, parallel.indexRoot, ?_⟩
  intro a b pair n context taken
  constructor
  · exact (parallel.mirror.locate pair n context).same Registry.Counterparts.alike
      Registry.Counterparts.policy
  · exact (parallel.mirror.chase pair n context taken).same Registry.Counterparts.alike
      Registry.Counterparts.policy

/-- A document with an entry in a category. -/
def catalogued : Node := Build.runNew <| Build.object [
  ("components", Build.object [("schemas", Build.object [("Pet", Build.object [])])])]

theorem walks_under_other_categories_catalogued :
    let r := [("/api.yaml", catalogued)].foldl Registry.withDocument { key := ⟨0⟩ }
    let other := [("/api.yaml", catalogued)].foldl Registry.withDocument
      { key := ⟨0⟩, config := ({} : Config).withCategories [] }
    let a := (r.standAt "/api.yaml" "").index
    let b := (other.standAt "/api.yaml" "").index
    let n := Build.runNew (Build.reference "#/components/schemas/Pet")
    r.Counterparts other a b ∧
      (a.findInCategories? "/api.yaml#/components/schemas/Pet").isSome = true ∧
      b.findInCategories? "/api.yaml#/components/schemas/Pet" = none ∧
      whereabouts? (locate r n a {}) =
        some ("/api.yaml#/components/schemas/Pet", some "/api.yaml") ∧
      Alongside (Option.Rel Located.Same) (locate r n a {}) (locate other n b {}) := by
  intro r other a b n
  have walks := walks_under_other_categories ⟨0⟩ ⟨0⟩ {} [] [("/api.yaml", catalogued)]
  have pair : r.Counterparts other a b := by
    have there := walks.1 "/api.yaml"
    have left : r.documents.get? "/api.yaml" = some a := by rfl
    have right : other.documents.get? "/api.yaml" = some b := by rfl
    rw [left, right] at there
    cases there with
    | some pair => exact pair
  refine ⟨pair, by decide +kernel, ?_, by decide +kernel, (walks.2.2 a b pair n {} 0).1⟩
  rfl

end DocRefs
