import DocRefs.Node.Basic
import DocRefs.Number.Binary64
import DocRefs.Text.Percent

/-!
# What can be digested

Plain data is digested as bytes that begin with a mark of its kind; lists and nodes are digested
through the digests of their parts. Only nodes have an identity: they alone never change.
-/
namespace DocRefs

/-- The bytes of a number, the lowest first. -/
def littleEndian (count n : Nat) : List UInt8 :=
  (List.range count).map fun i => UInt8.ofNat (n / Nat.pow 256 i)

def utf8Bytes (text : String) : List UInt8 := text.toUTF8.toList

inductive Content where
  | plain (bytes : List UInt8)
  /-- Another content inside something that has no identity. -/
  | held (inner : Content)
  | list (items : List Content)
  | node (n : Node)
  deriving Repr, Inhabited

namespace Content

def marked (mark : String) (bytes : List UInt8) : Content := plain (utf8Bytes mark ++ bytes)

def int64 (n : Int) : Content := marked "i" (littleEndian 8 (n % Nat.pow 2 64).toNat)
def int32 (n : Int) : Content := marked "i32" (littleEndian 4 (n % Nat.pow 2 32).toNat)
def nat64 (n : Nat) : Content := marked "u" (littleEndian 8 n)
def float (x : Binary64) : Content := marked "f" (littleEndian 8 x.bits.toNat)
def bool (b : Bool) : Content := marked "b" [if b then 1 else 0]
def text (s : String) : Content := marked "s" (utf8Bytes s)

/-- The content of a value that is not there. -/
def absent : Content := plain (utf8Bytes "<nil>")

/-- A value that may not be there. -/
def ofOption : Option Content → Content
  | some content => held content
  | none => absent

def identity? : Content → Option NodeId
  | node n => some n.id
  | _ => none

end Content

end DocRefs
