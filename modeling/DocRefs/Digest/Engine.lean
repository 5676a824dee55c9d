import DocRefs.Digest.Content
import DocRefs.Digest.Pool
import DocRefs.Digest.Sha256
import DocRefs.Text.Hex

/-!
# Digests

An engine digests contents with a seed in front. It reuses hashers and buffers and remembers the
digests of nodes by identity; neither may change a digest.

The digest of a node goes by kind, tag and text, and by the digests of its parts. Aliases count as
their targets, and the pairs of a mapping are put in order first, so neither aliases nor the order
of keys matter.
-/
namespace DocRefs

/-- The digest as lower-case hexadecimal digits. -/
def Digest.hex (d : Digest) : String := Text.hex d.bytes

instance : Clear Hasher := ⟨fun _ => {}⟩

structure Engine where
  seed : Option (List UInt8) := none
  hashers : Pool Hasher := {}
  buffers : Pool String := {}
  /-- The digests of nodes that have been asked for. -/
  cache : List (NodeId × Digest) := []

/-- A computation with an engine. -/
abbrev Hashing := StateM Engine

namespace Engine

def withSeed (seed : String) : Engine := { seed := some (utf8Bytes seed) }

/-- The digest of bytes. -/
def digestBytes (bytes : List UInt8) : Hashing Digest :=
  modifyGet fun e =>
    let (hasher, hashers) := e.hashers.take
    let used := (hasher.absorb (e.seed.getD [])).absorb bytes
    (used.finish, { e with hashers := hashers.give used })

/-! ## Nodes -/

/-- What stands for an alias whose chain is too long to follow. -/
def cycleMark : List UInt8 := utf8Bytes "<cycle>"

/-- A text with its length in front. -/
def sized (text : String) : List UInt8 :=
  let bytes := utf8Bytes text
  littleEndian 8 bytes.length ++ bytes

/-- The bytes of a list of digests: a mark, how many there are, and the digests. -/
def listBytes (mark : String) (digests : List Digest) : List UInt8 :=
  utf8Bytes mark ++ littleEndian 8 digests.length ++ digests.flatMap (·.bytes)

def scalarBytes (tag text : String) : List UInt8 := utf8Bytes "S" ++ sized tag ++ sized text

/-- The bytes of the pairs of a mapping, put in order. -/
def pairsBytes (pairs : List (Digest × Digest)) : List UInt8 :=
  let rows := pairs.map fun (key, value) => key.bytes ++ value.bytes
  utf8Bytes "M" ++ littleEndian 8 pairs.length ++
    (rows.mergeSort fun a b => decide (a ≤ b)).flatten

mutual

/-- The digest of a node, when so many aliases may still be followed. -/
def nodeDigest : Nat → Node → Hashing Digest
  | hops + 1, .aliasTo _ target => nodeDigest hops target
  | 0, .aliasTo _ _ => digestBytes cycleMark
  | _, .scalar info text => digestBytes (scalarBytes info.tag text)
  | _, .document _ root => do
    digestBytes (listBytes "D" [← nodeDigest aliasHops root])
  | _, .sequence _ items => do
    digestBytes (listBytes "Q" (← itemDigests items))
  | _, .mapping _ pairs => do
    digestBytes (pairsBytes (← pairDigests pairs))

def itemDigests : List Node → Hashing (List Digest)
  | [] => return []
  | item :: rest => return (← nodeDigest aliasHops item) :: (← itemDigests rest)

def pairDigests : List (Node × Node) → Hashing (List (Digest × Digest))
  | [] => return []
  | (key, value) :: rest =>
    return (← nodeDigest aliasHops key, ← nodeDigest aliasHops value) :: (← pairDigests rest)

end

/-! ## Contents -/

mutual

/-- The digest of a content, remembered if it has an identity. -/
def hash : Content → Hashing Digest
  | .plain bytes => digestBytes bytes
  | .held inner => hash inner
  | .list items => do digestBytes (listBytes "v" (← hashAll items))
  | .node n => do
    match (← get).cache.lookup n.id with
    | some digest => return digest
    | none =>
      let digest ← nodeDigest aliasHops n
      modify fun e => { e with cache := (n.id, digest) :: e.cache }
      return digest

def hashAll : List Content → Hashing (List Digest)
  | [] => return []
  | item :: rest => return (← hash item) :: (← hashAll rest)

end

/-- The digest of a content, without looking it up or remembering it. -/
def digest : Content → Hashing Digest
  | .node n => nodeDigest aliasHops n
  | content => hash content

/-- Both contents are there and have the same digest. -/
def equal : Option Content → Option Content → Hashing Bool
  | some a, some b => return (← hash a) == (← hash b)
  | _, _ => return false

def clear (e : Engine) : Engine := { e with cache := [] }

/-! ## Fields -/

/-- One of the fields that a record is digested by. -/
inductive Field where
  | text (s : String)
  | value (content : Content)
  | optional (content : Option Content)
  | map (entries : List (String × Content))

/-- The entries of a map field, each as a text. -/
def entryTexts : List (String × Content) → Hashing (List String)
  | [] => return []
  | (key, content) :: rest => do
    let digest ← hash content
    return (key ++ "=" ++ digest.hex) :: (← entryTexts rest)

/-- The text of a field, without the bar that ends it. -/
def fieldText : Field → Hashing String
  | .text s => return s
  | .value content => return (← hash content).hex
  | .optional none => return ""
  | .optional (some content) => return (← hash content).hex
  | .map entries =>
    return ",".intercalate ((← entryTexts entries).mergeSort fun a b => decide (a ≤ b))

/-- A buffer from the pool. -/
def openBuffer : Hashing String :=
  modifyGet fun e =>
    let (buffer, buffers) := e.buffers.take
    (buffer, { e with buffers })

def closeBuffer (buffer : String) : Hashing Unit :=
  modify fun e => { e with buffers := e.buffers.give buffer }

def addFields : String → List Field → Hashing String
  | buffer, [] => return buffer
  | buffer, field :: rest => do addFields (buffer ++ (← fieldText field) ++ "|") rest

/-- The digest of fields, one after another. -/
def hashFields (fields : List Field) : Hashing Digest := do
  let buffer ← addFields (← openBuffer) fields
  let digest ← digestBytes (utf8Bytes buffer)
  closeBuffer buffer
  return digest

/-- Adds fields that no digest is taken of in the end. -/
def abandonFields (fields : List Field) : Hashing Unit := do
  closeBuffer (← addFields (← openBuffer) fields)

end Engine

end DocRefs
