import DocRefs.Number.Binary64

/-!
# YAML values

Values without a source text. Two values are the same if they would be the same key: numbers by
value, tags without regard to one leading exclamation mark, mappings without regard to order.
-/
namespace DocRefs.Yaml

inductive Value where
  | null
  | bool (b : Bool)
  | integer (n : Int)
  | float (x : Binary64)
  | string (text : String)
  | sequence (items : List Value)
  | mapping (entries : List (Value × Value))
  | tagged (tag : String) (value : Value)
  deriving Repr, Inhabited

namespace Value

/-- The tag without one leading exclamation mark, unless nothing would be left. -/
def bareTag (tag : String) : List Char :=
  match tag.toList with
  | '!' :: first :: rest => first :: rest
  | text => text

mutual

def same : Value → Value → Bool
  | null, null => true
  | bool a, bool b => a == b
  | integer a, integer b => a == b
  | float a, float b => a.sameNumber b
  | string a, string b => a == b
  | sequence a, sequence b => sameItems a b
  | mapping a, mapping b => a.length == b.length && allIn a b
  | tagged s a, tagged t b => bareTag s == bareTag t && a.same b
  | _, _ => false

def sameItems : List Value → List Value → Bool
  | [], [] => true
  | a :: as, b :: bs => a.same b && sameItems as bs
  | _, _ => false

/-- Every entry has an equal one among the others. -/
def allIn : List (Value × Value) → List (Value × Value) → Bool
  | [], _ => true
  | (key, value) :: rest, others =>
    others.any (fun (k, v) => key.same k && value.same v) && allIn rest others

end

/-- Puts a value under a key; an equal key keeps its place. -/
def insert (entries : List (Value × Value)) (key value : Value) : List (Value × Value) :=
  match entries with
  | [] => [(key, value)]
  | (k, v) :: rest => if key.same k then (k, value) :: rest else (k, v) :: insert rest key value

/-- The mapping that results from putting in entries one after another. -/
def ofEntries (entries : List (Value × Value)) : Value :=
  .mapping (entries.foldl (fun result (key, value) => insert result key value) [])

end Value

end DocRefs.Yaml
