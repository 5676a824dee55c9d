import DocRefs.Config.Parallel
import DocRefs.Error
import DocRefs.Location.Url.Parse
import DocRefs.Text.Ascii

/-!
# Configuration

How documents are located, which keys are extensions, whether cycles are errors, and which mappings
have a table of their own. The tables only save work: no answer depends on them.
-/
namespace DocRefs

/-- A mapping whose entries are catalogued in a table. -/
structure LookupCategory where
  name : String
  /-- The written fragment of the mapping, without hash sign. -/
  pointer : String
  deriving DecidableEq, Repr, Inhabited

namespace LookupCategory

def ofComponents (name : String) : LookupCategory := ⟨name, "/components/" ++ name⟩

/-- The categories of an interface description, in the order in which they are asked. -/
def defaults : List LookupCategory :=
  ["schemas", "parameters", "responses", "headers", "requestBodies", "examples", "links",
    "callbacks", "securitySchemes", "pathItems"].map ofComponents ++
  [⟨"definitions", "/definitions"⟩, ⟨"swaggerParameters", "/parameters"⟩,
    ⟨"swaggerResponses", "/responses"⟩]

end LookupCategory

/-- The key starts with the mark of extensions, up to ASCII case. An empty mark marks nothing. -/
def isMarkedKey (mark key : String) : Bool := !mark.isEmpty && Text.startsWithFold key mark

structure Config where
  /-- The location of the root document. -/
  specPath : Option String := none
  /-- What relative references of a document without location are relative to. -/
  baseUrl : Option Location.Url := none
  /-- Cycles are passed over in silence. -/
  allowCircular : Bool := false
  extensionPrefix : String := "x-"
  categories : List LookupCategory := LookupCategory.defaults
  parallel : Parallel := {}
  deriving Repr

namespace Config

instance : Inhabited Config := ⟨{}⟩

def isExtensionKey (c : Config) (key : String) : Bool := isMarkedKey c.extensionPrefix key

/-- The first category whose pointer is not written from the root. -/
def badCategory? (c : Config) : Option LookupCategory :=
  c.categories.find? fun category => category.pointer.toList.head? ≠ some '/'

/-- What is wrong with a configuration that reads well. -/
def fault? (c : Config) : Option ConfigFault :=
  if c.extensionPrefix.isEmpty then some .emptyExtensionPrefix
  else c.badCategory?.map fun category => .categoryPointer category.name category.pointer

theorem fault?_default : (({} : Config).fault?) = none := by decide

end Config

theorem isMarkedKey_iff {mark key : String} :
    isMarkedKey mark key = true ↔ mark.isEmpty = false ∧ Text.fold mark <+: Text.fold key := by
  simp [isMarkedKey, Text.startsWithFold_iff]

end DocRefs
