import DocRefs.Extract.Partial
import DocRefs.Extract.Provenance
import DocRefs.Naming

/-!
# Fields

A record lists its fields; each is looked for among the keys of a mapping and converted. An exact
spelling in any convention wins over one that only agrees up to case, and among equals the preferred
convention wins. The first field that does not convert ends the filling.
-/
namespace DocRefs

namespace Node

/-- The pair for a field. -/
def findField? (n : Node) (name : String) : Option (Node × Node) :=
  let variants := (Naming.variants name.toList).map String.ofList
  (variants.findSome? n.findKey?).or (variants.findSome? n.findKeyFold?)

end Node

/-- Types that a key and the value under it convert to. -/
class FieldType (α : Type) where
  convert (key value : Node) : Except FieldProblem α

namespace FieldType

/-- The text of a scalar. -/
def scalarText (value : Node) : Except FieldProblem String :=
  if value.isScalar then .ok value.text else .error (.expectedScalar value.kind)

def isNull (value : Node) : Bool := value.tag = CoreTag.null

instance : FieldType String where
  convert _ value := if isNull value then .ok "" else scalarText value

instance : FieldType Bool where
  convert _ value := do
    let text ← scalarText value
    if value.tag = CoreTag.bool then return Text.equalFold text "true"
    else throw (.notBoolean text)

/-- Integers of 64 bits. -/
instance : FieldType Int where
  convert _ value := do
    let text ← scalarText value
    (IntegerRange.int64.read text).mapError (.notInteger text)

instance : FieldType Binary64 where
  convert _ value := do
    let text ← scalarText value
    (Binary64.read text).mapError (.notNumber text)

instance : FieldType Node where
  convert _ value := .ok value

variable {α : Type} [FieldType α]

instance : FieldType (Option α) where
  convert key value := if isNull value then .ok none else some <$> convert key value

/-- A sequence item by item, or one value alone. -/
instance : FieldType (List α) where
  convert key value :=
    match value with
    | .sequence _ items => items.mapM fun item => convert key item.resolveAlias
    | value => (fun item => [item]) <$> convert key value

instance : FieldType (FromPair α) where
  convert key value := do
    return { value := ← convert key value, key := some key, node := some value }

instance : FieldType (FromNode α) where
  convert key value := do return { value := ← convert key value, node := some value }

end FieldType

/-- A field of a record and how it is filled. -/
structure FieldBinding (ρ : Type) where
  name : String
  fill : (key value : Node) → ρ → Except FieldProblem ρ

namespace FieldBinding

variable {ρ : Type}

/-- A field that is filled with a converted value. -/
def typed {α : Type} [FieldType α] (name : String) (set : α → ρ → ρ) : FieldBinding ρ where
  name := name
  fill key value record := do return set (← FieldType.convert key value) record

/-- Fills one field, if the mapping has it. -/
def populate (n : Node) (binding : FieldBinding ρ) (record : ρ) : Except RefError ρ :=
  match n.findField? binding.name with
  | none => .ok record
  | some (key, value) =>
    let value := value.resolveAlias
    (binding.fill key value record).mapError (.field binding.name value.position)

/-- Fills fields in order; what is filled before a failure stays. -/
def populateAll (n : Node) : List (FieldBinding ρ) → ρ → Partial ρ
  | [], record => .ok record
  | binding :: rest, record =>
    match binding.populate n record with
    | .ok filled => populateAll n rest filled
    | .error e => .failing record e

end FieldBinding

/-- Fills the fields of a record from a mapping. What is no mapping fills nothing. -/
def populate {ρ : Type} (bindings : List (FieldBinding ρ)) (n : Node) (record : ρ) : Partial ρ :=
  let n := n.resolveAlias
  if n.isMapping then FieldBinding.populateAll n bindings record else .ok record

theorem populate_nil {ρ : Type} (n : Node) (record : ρ) : populate [] n record = .ok record := by
  unfold populate; dsimp only; split <;> rfl

end DocRefs
