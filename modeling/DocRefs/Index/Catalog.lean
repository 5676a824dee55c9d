import DocRefs.Fragment
import DocRefs.Index.Reference
import DocRefs.Location.Pointer

/-!
# Catalogues

The places of a document: its root and whatever can be reached through values and items, each under
the written fragment of the path to it. Aliases are places, but nothing below them is. Where a key
is repeated in a mapping the first value keeps the fragment.
-/
namespace DocRefs

/-- The absolute pointer to a fragment of the document at a location. -/
def pointerTo (location : Option String) (fragment : String) : String :=
  location.getD "" ++ "#" ++ fragment

/-- The name that a fragment ends in. -/
def lastName (fragment : String) : String := (Fragment.segments fragment).getLastD ""

/-- A place as a reference to itself. -/
def Reference.ofPlace (location : Option String) (fragment : String) (node : Node)
    (key : Option Node) : Reference where
  definition := pointerTo location fragment
  raw := "#" ++ fragment
  name := lastName fragment
  node := node
  key := key

/-- A place with the fragment of the path to it. -/
structure Place where
  fragment : String
  node : Node
  key : Option Node := none
  deriving Repr, Inhabited

namespace Place

mutual

/-- A node and the places below it, from the top down and in document order. -/
def below (fragment : String) (key : Option Node) : Node → List Place
  | .mapping info pairs => ⟨fragment, .mapping info pairs, key⟩ :: belowPairs fragment pairs
  | .sequence info items => ⟨fragment, .sequence info items, key⟩ :: belowItems fragment 0 items
  | n => [⟨fragment, n, key⟩]

def belowPairs (fragment : String) : List (Node × Node) → List Place
  | [] => []
  | (key, value) :: rest =>
    below (fragment ++ "/" ++ Fragment.escape key.text) (some key) value ++
      belowPairs fragment rest

def belowItems (fragment : String) (position : Nat) : List Node → List Place
  | [] => []
  | item :: rest =>
    below (fragment ++ "/" ++ toString position) none item ++
      belowItems fragment (position + 1) rest

end

end Place

/-- The places of the document `root` by their fragments. -/
structure Catalog where
  location : Option String
  root : Node
  places : Table Reference
  deriving Inhabited

namespace Catalog

def ofDocument (location : Option String) (root : Node) : Catalog where
  location := location
  root := root
  places := Table.ofList <| (Place.below "" none root.unwrapDocument).map fun place =>
    (place.fragment, Reference.ofPlace location place.fragment place.node place.key)

/-- A pointer with this document part leads into the document itself. -/
def isLocal (c : Catalog) (document : String) : Bool :=
  document.isEmpty || c.location = some document

/-- The place at a fragment as it is written, or else what its path leads to. -/
def find? (c : Catalog) (fragment : String) : Option Reference :=
  -- A path may be written in many ways, or lead through aliases, which the table does not enter.
  (c.places.get? fragment).or <| do
    let path := Fragment.segments fragment
    let node ← c.root.unwrapDocument.atSegments? path
    return .ofPlace c.location (Fragment.ofSegments path) node none

end Catalog

end DocRefs
