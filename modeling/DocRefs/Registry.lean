import DocRefs.Error
import DocRefs.Index.Build
import DocRefs.Location.FileTree
import DocRefs.Text.Case

/-!
# Adding documents to a registry

A document is registered under the normal form of its location and takes the place of the one that
is there. A document that cannot be registered leaves the registry as it is.
-/
namespace DocRefs.Registry

/-- Registers a document. -/
def addDocument (r : Registry) (location : String) (root : Node) :
    Except RefError (Registry × Index) :=
  if location.toList.all Text.isBlank then
    .error (.document location "document location must not be empty")
  else
    let location := Location.normalize location
    let config := { r.config with specPath := some location }
    let index := Index.build config (some location) (some r) root
    .ok ({ r with documents := r.documents.insert location index }, index)

/-- Reads a text and registers it. -/
def addSource (r : Registry) (location text : String) :
    Build (Except RefError (Registry × Index)) :=
  return (← Node.parseNamed location text) >>= r.addDocument location

/-- Reads a file and registers it under its path. -/
def addFile (r : Registry) (files : FileTree) (path : String) :
    Build (Except RefError (Registry × Index)) :=
  match files.read path with
  | .error fault => return .error (.file path fault)
  | .ok text => r.addSource path text

/-- The index of a root document, which is at the configured location but not registered. -/
def indexRoot (r : Registry) (root : Node) : Index :=
  Index.build r.config (r.config.specPath.map Location.normalize) (some r) root

theorem addDocument_blank (r : Registry) {location : String} (root : Node)
    (blank : location.toList.all Text.isBlank = true) :
    r.addDocument location root =
      .error (.document location "document location must not be empty") := by
  simp [addDocument, blank]

end DocRefs.Registry
