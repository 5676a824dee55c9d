import DocRefs.Node.Basic
import DocRefs.Number.Integer
import DocRefs.Text.Percent
import DocRefs.Text.Split

/-!
# Fragments

A fragment is a path from the root of a document, one segment for each step down. In its written
form segments are separated by slashes; within a segment `~1` is a slash, `~0` a tilde, and bytes
may be percent-encoded.
-/
namespace DocRefs.Fragment

/-! ## Written form -/

def escapeChars : List Char → List Char
  | [] => []
  | '~' :: rest => '~' :: '0' :: escapeChars rest
  | '/' :: rest => '~' :: '1' :: escapeChars rest
  | c :: rest => c :: escapeChars rest

/-- One key as a segment of a written fragment. -/
def escape (key : String) : String := String.ofList (escapeChars key.toList)

/-- Replaces a tilde and the character `code` by `c`, wherever the two stand together. -/
def unescapeTilde (code c : Char) : List Char → List Char
  | '~' :: next :: rest =>
    if next = code then c :: unescapeTilde code c rest
    else '~' :: unescapeTilde code c (next :: rest)
  | first :: rest => first :: unescapeTilde code c rest
  | [] => []

/-- The key that a segment stands for: percent-encoding is taken off first. -/
def unescapeChars (segment : List Char) : List Char :=
  -- Slashes come before tildes, so that `~01` is a tilde and a one.
  unescapeTilde '0' '~' (unescapeTilde '1' '/' (Text.percentDecode segment))

/-- The segments of a written fragment; leading hash signs and slashes do not count. -/
def segments (fragment : String) : List String :=
  match (fragment.toList.dropWhile (· = '#')).dropWhile (· = '/') with
  | [] => []
  | path => (Text.split (· = '/') path).map fun segment => String.ofList (unescapeChars segment)

/-- The written form of a path. -/
def ofSegments (path : List String) : String :=
  String.join (path.map fun segment => "/" ++ escape segment)

/-! ## Readable form -/

def isWord (c : Char) : Bool := c.isAlphanum || c = '_' || c = '-'

def readableSegment (segment : List Char) : List Char :=
  if !segment.isEmpty && segment.all Char.isDigit then '[' :: segment ++ [']']
  else if !segment.isEmpty && segment.all isWord then '.' :: segment
  else
    "['".toList ++ segment.flatMap (fun c => if c = '\'' then ['\\', '\''] else [c]) ++ "']".toList

/-- The path as a query: words behind a dot, numbers as indices, and anything else quoted. -/
def readable (path : List String) : String :=
  String.ofList ('$' :: path.flatMap fun segment => readableSegment segment.toList)

end DocRefs.Fragment

namespace DocRefs.Node

/-- The item that a segment names by its index. -/
def itemAt? (items : List Node) (segment : String) : Option Node :=
  match IntegerRange.nat64.read segment with
  | .ok index => items[index.toNat]?
  | .error _ => none

/-- One step down, with aliases followed: the value of a key, or the item of an index. -/
def child? (n : Node) (segment : String) : Option Node :=
  match n with
  | mapping .. => (n.findKey? segment).map fun (_, value) => value.resolveAlias
  | sequence _ items => (itemAt? items segment).map resolveAlias
  | _ => none

/-- Walks down a path, following aliases at every step. -/
def atSegments? (root : Node) (path : List String) : Option Node :=
  path.foldlM child? root.resolveAlias

/-- Walks down a written path from the content of a document. -/
def atFragment? (root : Node) (fragment : String) : Option Node :=
  root.unwrapDocument.atSegments? (Fragment.segments fragment)

@[simp] theorem atSegments?_nil (root : Node) : root.atSegments? [] = some root.resolveAlias := rfl

end DocRefs.Node
