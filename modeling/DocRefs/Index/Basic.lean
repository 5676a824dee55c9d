import DocRefs.Config
import DocRefs.Index.Catalog
import DocRefs.Text.Sorted

/-!
# Indexes and their registry

An index is the catalogue of a document with what its references lead to. A registry holds the
indexes of several documents by location. An index keeps the key of the registry that it was made
in, and looks for other documents in no other.
-/
namespace DocRefs

/-- Tells registries apart. -/
structure RegistryKey where
  number : Nat
  deriving DecidableEq, Repr, Inhabited

structure Index extends Catalog where
  config : Config
  /-- The entries of each lookup category by their pointers. -/
  categories : Table (Table Reference)
  /-- The references of the document in document order. -/
  sites : List Reference
  /-- What the references lead to, by pointer. -/
  mapped : Table Reference
  /-- The references into the document itself that lead nowhere. -/
  unresolved : List Reference
  findings : List Finding
  registry : Option RegistryKey
  deriving Inhabited

structure Registry where
  key : RegistryKey
  config : Config := {}
  documents : Table Index := .empty
  deriving Inhabited

namespace Registry

/-- The index of the document at a location, which need not be in normal form. -/
def indexAt? (r : Registry) (location : String) : Option Index :=
  (r.documents.get? location).or (r.documents.get? (Location.normalize location))

/-- The index and the place that a pointer into another document leads to. -/
def find? (r : Registry) (pointer : String) : Option (Index × Reference) := do
  let (document, fragment) := Location.splitPointer pointer
  let index ← r.indexAt? document
  let reference ← index.find? fragment
  return (index, reference)

/-- The locations in order. -/
def locations (r : Registry) : List String := Text.sorted r.documents.keys

end Registry

end DocRefs
