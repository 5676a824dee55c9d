import DocRefs.Yaml.Token

/-!
# Events

Events are a tree in the order in which it is written down: a collection is what stands between its
start and its end. Anchors are numbered from one in the order of their occurrence, so an alias names
the number of its anchor and zero means no anchor.
-/
namespace DocRefs.Yaml

/-- A tag with its handle expanded. -/
structure Tag where
  handle : String
  suffix : String
  deriving DecidableEq, Repr, Inhabited

inductive EventKind where
  | scalar (text : String) (style : ScalarStyle) (anchor : Nat) (tag : Option Tag)
  | aliasTo (anchor : Nat)
  | sequenceStart (anchor : Nat) (tag : Option Tag)
  | sequenceEnd
  | mappingStart (anchor : Nat) (tag : Option Tag)
  | mappingEnd
  deriving DecidableEq, Repr

structure Event where
  mark : Mark
  kind : EventKind
  deriving DecidableEq, Repr

end DocRefs.Yaml
