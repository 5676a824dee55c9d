import DocRefs.Node.Build
import DocRefs.Yaml.Event.Grammar

/-!
# Nodes from events

The builder keeps the open collections on a stack and the finished anchored nodes in a table. An
alias can only name a finished node, so no tree contains itself; the first alias that names another
one settles the outcome, whatever follows.
-/
namespace DocRefs

/-- The name of a tag in a node: the core schema is abbreviated. -/
def Yaml.Tag.name (tag : Yaml.Tag) : String :=
  if tag.handle = Yaml.coreSchema ∨ tag.handle = "!!" then "!!" ++ tag.suffix
  else tag.handle ++ tag.suffix

def Yaml.Mark.position (mark : Yaml.Mark) : Position := ⟨mark.line, mark.column + 1⟩

inductive Collection where
  | sequence
  | mapping
  deriving DecidableEq, Repr

/-- A collection that has begun: its children so far, the last one first. -/
structure OpenNode where
  collection : Collection
  anchor : Nat
  tag : Option Yaml.Tag
  position : Position
  children : List Node := []

structure TreeBuilder where
  /-- The open collections, the innermost first. -/
  stack : List OpenNode := []
  anchors : List (Nat × Node) := []
  root : Option Node := none
  /-- Where an alias named a node that is not finished. -/
  unfinished : Option Position := none

namespace TreeBuilder

/-- The name that the anchor with a given number has in a tree. -/
def anchorName (anchor : Nat) : String := s!"anchor-{anchor}"

/-- The children of a mapping as pairs; a last key without value is dropped. -/
def pairUp : List Node → List (Node × Node)
  | key :: value :: rest => (key, value) :: pairUp rest
  | _ => []

/-- Hands a finished node to the innermost collection. The first node without one is the root. -/
def attach (b : TreeBuilder) (n : Node) : TreeBuilder :=
  match b.stack with
  | top :: outer => { b with stack := { top with children := n :: top.children } :: outer }
  | [] => { b with root := b.root.or (some n) }

/-- Names a node by its anchor, if it has one, and hands it on. -/
def finish (b : TreeBuilder) (n : Node) (anchor : Nat) : TreeBuilder :=
  if anchor = 0 then b.attach n
  else
    let n := n.anchored (anchorName anchor)
    { b with anchors := (anchor, n) :: b.anchors }.attach n

/-- Closes the innermost collection. -/
def close (b : TreeBuilder) : Build TreeBuilder := do
  match b.stack with
  | [] => return b
  | top :: outer =>
    let children := top.children.reverse
    let n ← match top.collection with
      | .sequence => Build.sequence children
      | .mapping => Build.mapping (pairUp children)
    let n := n.place top.position
    -- A tag that is written takes the place of the one that the collection has by itself.
    let n := match top.tag with
      | some tag => n.retagged tag.name
      | none => n
    return { b with stack := outer }.finish n top.anchor

def openNode (b : TreeBuilder) (n : OpenNode) : TreeBuilder :=
  { b with stack := n :: b.stack }

/-- A scalar has the tag that was written, or that of its spelling if it is plain. -/
def scalarNode (text : String) (style : Yaml.ScalarStyle) (tag : Option Yaml.Tag) : Build Node :=
  match tag, style with
  | some tag, _ => Build.tagged text tag.name
  | none, .plain => Build.scalar text
  | none, _ => Build.string text

def event (b : TreeBuilder) (e : Yaml.Event) : Build TreeBuilder := do
  if b.unfinished.isSome then return b
  let position := e.mark.position
  match e.kind with
  | .scalar text style anchor tag =>
    return b.finish ((← scalarNode text style tag).place position) anchor
  | .aliasTo anchor =>
    match b.anchors.lookup anchor with
    | some target => return b.finish ((← Build.aliasTo target).place position) 0
    -- Every anchor has been met, so a node that is not in the table is still open.
    | none => return { b with unfinished := some position }
  | .sequenceStart anchor tag => return b.openNode ⟨.sequence, anchor, tag, position, []⟩
  | .mappingStart anchor tag => return b.openNode ⟨.mapping, anchor, tag, position, []⟩
  | .sequenceEnd | .mappingEnd => b.close

end TreeBuilder

/-- Why a text is not a document. -/
inductive ParseFault where
  | malformed (fault : Yaml.Malformed)
  | unfinishedAlias (position : Position)
  | topLevel (position : Position) (kind : NodeKind)
  | other (message : String)
  deriving DecidableEq, Repr

def Position.text (p : Position) : String := s!"{p.line}:{p.column}"

def ParseFault.message : ParseFault → String
  | malformed fault => fault.message
  | unfinishedAlias position =>
    position.text ++ ": alias refers to a node that is not complete"
  | topLevel position kind =>
    position.text ++ ": top level is a " ++ kind.name ++ ", not a mapping"
  | other message => message

/-- Feeds events to a builder. -/
def TreeBuilder.run (events : List Yaml.Event) : Build TreeBuilder :=
  events.foldlM TreeBuilder.event {}

/-- The tree that events describe; without events it is an empty mapping. Its root must be a
mapping. -/
def Node.ofEvents? (events : List Yaml.Event) : Build (Except ParseFault Node) := do
  let built ← TreeBuilder.run events
  match built.unfinished, built.root with
  | some position, _ => return .error (.unfinishedAlias position)
  | none, none => return .ok (← Build.mapping [])
  | none, some root =>
    if root.isMapping then return .ok root
    else return .error (.topLevel root.position root.kind)

/-- The document that a text holds. -/
def Node.parse? (text : String) : Build (Except ParseFault Node) :=
  match Yaml.events text with
  | .error fault => return .error (.malformed fault)
  | .ok events => Node.ofEvents? (events.getD [])

end DocRefs
