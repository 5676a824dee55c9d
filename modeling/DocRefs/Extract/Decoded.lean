import DocRefs.Digest.Content
import DocRefs.Node.Merge
import DocRefs.Number.Binary64.Text
import DocRefs.Number.Integer
import DocRefs.OrderedMap
import DocRefs.Text.Ascii
import DocRefs.Text.Json

/-!
# Decoded values

What a node says, without position or spelling. The tag of a scalar decides what it is read as, and
a number that does not fit stays a text. Scalars of other tags stay nodes.
-/
namespace DocRefs

namespace Node

theorem sizeOf_follow_le : (hops : Nat) → (n : Node) → sizeOf (follow hops n) ≤ sizeOf n
  | 0, n => by simp
  | hops + 1, .aliasTo _ target => by
    have below := sizeOf_follow_le hops target
    simp only [follow_alias, aliasTo.sizeOf_spec]; omega
  | _ + 1, .scalar .. | _ + 1, .sequence .. | _ + 1, .mapping .. | _ + 1, .document .. =>
    Nat.le_refl _

theorem sizeOf_unwrapDocument_le : (n : Node) → sizeOf n.unwrapDocument ≤ sizeOf n
  | .document .. => by simp only [unwrapDocument, document.sizeOf_spec]; omega
  | .scalar .. | .sequence .. | .mapping .. | .aliasTo .. => Nat.le_refl _

/-- What an alias stands for, or the content of a document. -/
def content (n : Node) : Node := n.resolveAlias.unwrapDocument

theorem sizeOf_content_le (n : Node) : sizeOf n.content ≤ sizeOf n :=
  Nat.le_trans (sizeOf_unwrapDocument_le _) (sizeOf_follow_le _ n)

end Node

inductive Decoded where
  | null
  | bool (b : Bool)
  | integer (n : Int)
  | float (x : Binary64)
  | string (text : String)
  | sequence (items : List Decoded)
  /-- Keys are distinct and in document order. -/
  | mapping (entries : List (String × Decoded))
  /-- What has no meaning of its own here. -/
  | node (n : Node)
  deriving Repr, Inhabited

namespace Decoded

/-- What a scalar says. -/
def ofScalar (info : NodeInfo) (text : String) : Decoded :=
  if info.tag = CoreTag.null then .null
  else if info.tag = CoreTag.bool then .bool (Text.equalFold text "true")
  else if info.tag = CoreTag.int then
    match IntegerRange.int64.read text with
    | .ok n => .integer n
    | .error _ => .string text
  else if info.tag = CoreTag.float then
    match Binary64.read text with
    | .ok x => .float x
    | .error _ => .string text
  else if info.tag = CoreTag.str then .string text
  else .node (.scalar info text)

/-- What a node says. -/
def ofNode (n : Node) : Decoded :=
  match _ : n.content with
  | .mapping info pairs =>
    let entries := (Node.mapping info pairs).effectivePairs.attach.map fun ⟨(key, value), _⟩ =>
      (key.text, ofNode value)
    .mapping (OrderedMap.ofList entries).toList
  | .sequence _ items => .sequence (items.attach.map fun ⟨item, _⟩ => ofNode item)
  | .scalar info text => ofScalar info text
  | .aliasTo info target => .node (.aliasTo info target)
  | .document info root => .node (.document info root)
termination_by sizeOf n
decreasing_by
  all_goals have outer := Node.sizeOf_content_le n
  · rename_i content_eq member
    rw [content_eq] at outer
    have inner := Node.sizeOf_lt_of_mem_effectivePairs member
    dsimp only at inner; omega
  · rename_i content_eq member
    rw [content_eq] at outer
    have inner := List.sizeOf_lt_of_mem member
    simp only [Node.sequence.sizeOf_spec] at outer; omega

/-- The value as a text, if it is one. -/
def text? : Decoded → Option String
  | string text => some text
  | _ => none

mutual

/-- Values of one kind with equal parts. Floats are compared bit by bit, nodes by tag and text. -/
def same : Decoded → Decoded → Bool
  | .null, .null => true
  | .bool a, .bool b => a == b
  | .integer a, .integer b => a == b
  | .float a, .float b => a.bits == b.bits
  | .string a, .string b => a == b
  | .sequence a, .sequence b => sameItems a b
  | .mapping a, .mapping b => sameEntries a b
  | .node a, .node b => a.tag == b.tag && a.text == b.text
  | _, _ => false

def sameItems : List Decoded → List Decoded → Bool
  | [], [] => true
  | a :: as, b :: bs => same a b && sameItems as bs
  | _, _ => false

def sameEntries : List (String × Decoded) → List (String × Decoded) → Bool
  | [], [] => true
  | (k, a) :: as, (l, b) :: bs => k == l && same a b && sameEntries as bs
  | _, _ => false

end

instance : BEq Decoded := ⟨same⟩

mutual

/-- The value in JSON. What JSON has no number for is null there. -/
def toJson : Decoded → Json
  | .null => .null
  | .bool b => .bool b
  | .integer n => .integer n
  | .float x => if x.isFinite then .float x else .null
  | .string text => .string text
  | .sequence items => .array (itemsToJson items)
  | .mapping entries => .ofFields (entriesToJson entries)
  | .node n => .string n.text

def itemsToJson : List Decoded → List Json
  | [] => []
  | item :: rest => toJson item :: itemsToJson rest

def entriesToJson : List (String × Decoded) → List (String × Json)
  | [] => []
  | (key, value) :: rest => (key, toJson value) :: entriesToJson rest

end

/-- The value as it is digested: its JSON text. -/
def toContent (d : Decoded) : Content := .plain (utf8Bytes d.toJson.text)

end Decoded

end DocRefs
