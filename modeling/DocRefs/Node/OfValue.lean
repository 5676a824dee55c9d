import DocRefs.Node.Build
import DocRefs.Yaml.Value

/-!
# Nodes from YAML values

A value has no place in a text, so its nodes are at 0:0. The tag of a scalar says what the value
is, never how its text looks; a string key is a string whatever it looks like, except that a string
`<<` becomes a merge key as in any mapping.
-/
namespace DocRefs

/-- Numbers are written without exponent if they have at most sixteen digits before the point, or at
most four zeros behind it. -/
def yamlLayout : Binary64.Layout := ⟨16, 4, false⟩

/-- The text of a number that need not be finite. -/
def Binary64.yamlText (x : Binary64) : String :=
  if x.isNaN then ".nan"
  else if x.isInfinite then (if x.isNegative then "-.inf" else ".inf")
  else x.text yamlLayout

namespace Node

/-- A tag as it is written: with one exclamation mark in front. -/
def writtenTag (tag : String) : String :=
  "!" ++ String.ofList (Yaml.Value.bareTag tag)

/-- The node anew under another tag. A scalar keeps only its text. -/
def underTag (n : Node) (tag : String) : Build Node :=
  match n with
  | scalar _ text => Build.tagged text tag
  | sequence _ items => return (← Build.sequence items).retagged tag
  | n => return (← Build.mapping n.pairs).retagged tag

mutual

def ofValue : Yaml.Value → Build Node
  | .null => Build.tagged "null" CoreTag.null
  | .bool b => Build.tagged (if b then "true" else "false") CoreTag.bool
  | .integer n => Build.tagged (toString n) CoreTag.int
  | .float x => Build.tagged x.yamlText CoreTag.float
  | .string text => Build.tagged text CoreTag.str
  | .sequence items => do Build.sequence (← ofValues items)
  | .mapping entries => do Build.mapping (← ofEntries entries)
  | .tagged tag value => do (← ofValue value).underTag (writtenTag tag)

def ofValues : List Yaml.Value → Build (List Node)
  | [] => return []
  | value :: rest => return (← ofValue value) :: (← ofValues rest)

def ofEntries : List (Yaml.Value × Yaml.Value) → Build (List (Node × Node))
  | [] => return []
  | (key, value) :: rest => return (← ofValue key, ← ofValue value) :: (← ofEntries rest)

end

end Node

end DocRefs
