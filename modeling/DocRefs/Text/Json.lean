import DocRefs.Number.Binary64.Text
import DocRefs.Text.Hex
import DocRefs.Text.Sorted

/-!
# JSON text

JSON values and their compact text. The fields of an object are written in the order of their names.
-/
namespace DocRefs

inductive Json where
  | null
  | bool (b : Bool)
  | integer (n : Int)
  | float (x : Binary64)
  | string (text : String)
  | array (items : List Json)
  | object (fields : List (String × Json))
  deriving Repr, Inhabited

namespace Json

/-- Numbers are written without exponent if they have at most sixteen digits before the point, or at
most four zeros behind it. -/
def layout : Binary64.Layout := ⟨16, 4, true⟩

/-- A character inside quotation marks. -/
def quotedChar (c : Char) : List Char :=
  match c with
  | '"' => ['\\', '"']
  | '\\' => ['\\', '\\']
  | '\x08' => ['\\', 'b']
  | '\x0c' => ['\\', 'f']
  | '\n' => ['\\', 'n']
  | '\r' => ['\\', 'r']
  | '\t' => ['\\', 't']
  | c =>
    if c.toNat < 0x20 then ['\\', 'u', '0', '0'] ++ Text.hexByte (UInt8.ofNat c.toNat) else [c]

def quoted (text : String) : List Char := '"' :: text.toList.flatMap quotedChar ++ ['"']

mutual

def chars : Json → List Char
  | .null => "null".toList
  | .bool b => (if b then "true" else "false").toList
  | .integer n => (toString n).toList
  | .float x => (if x.isFinite then x.text layout else "null").toList
  | .string text => quoted text
  | .array items => '[' :: itemChars items ++ [']']
  | .object fields => '\x7b' :: fieldChars fields ++ ['\x7d']

def itemChars : List Json → List Char
  | [] => []
  | [item] => chars item
  | item :: rest => chars item ++ ',' :: itemChars rest

def fieldChars : List (String × Json) → List Char
  | [] => []
  | [(name, value)] => quoted name ++ ':' :: chars value
  | (name, value) :: rest => quoted name ++ ':' :: chars value ++ ',' :: fieldChars rest

end

/-- The compact text of a value. -/
def text (j : Json) : String := String.ofList j.chars

/-- Puts a field in its place among fields in order. -/
def insertField (name : String) (value : Json) : List (String × Json) → List (String × Json)
  | [] => [(name, value)]
  | (n, v) :: rest =>
    if name < n then (name, value) :: (n, v) :: rest else (n, v) :: insertField name value rest

/-- An object of fields with distinct names. -/
def ofFields (fields : List (String × Json)) : Json :=
  object (fields.foldl (fun sorted (name, value) => insertField name value sorted) [])

theorem perm_insertField (name : String) (value : Json) (fields : List (String × Json)) :
    (insertField name value fields).Perm ((name, value) :: fields) := by
  induction fields with
  | nil => exact .refl _
  | cons field rest ih =>
    unfold insertField
    split
    · exact .refl _
    · exact (ih.cons field).trans (.swap _ _ _)

theorem pairwise_insertField {name : String} (value : Json) {fields : List (String × Json)}
    (new : name ∉ fields.map (·.1)) (ordered : fields.Pairwise (·.1 < ·.1)) :
    (insertField name value fields).Pairwise (·.1 < ·.1) := by
  induction fields with
  | nil => simp [insertField]
  | cons field rest ih =>
    obtain ⟨least, ordered_rest⟩ := List.pairwise_cons.1 ordered
    rw [List.map_cons, List.mem_cons, not_or] at new
    unfold insertField
    split
    next below =>
      refine List.pairwise_cons.2 ⟨fun other member => ?_, ordered⟩
      rcases List.mem_cons.1 member with rfl | later
      · exact below
      · exact String.lt_trans below (least other later)
    next above =>
      refine List.pairwise_cons.2 ⟨fun other member => ?_, ih new.2 ordered_rest⟩
      rcases List.mem_cons.1 ((perm_insertField name value rest).mem_iff.1 member) with rfl | later
      · exact Decidable.byContradiction fun no =>
          new.1 (String.le_antisymm (String.not_lt.1 no) (String.not_lt.1 above))
      · exact least other later

/-- An object has the fields that it is made of, in the order of their names. -/
theorem exists_ofFields {fields : List (String × Json)} (distinct : (fields.map (·.1)).Nodup) :
    ∃ sorted, ofFields fields = object sorted ∧ sorted.Perm fields ∧
      sorted.Pairwise (·.1 < ·.1) := by
  have sorts (fields sorted : List (String × Json)) (ordered : sorted.Pairwise (·.1 < ·.1))
      (distinct : ((sorted ++ fields).map (·.1)).Nodup) :
      (fields.foldl (fun sorted field => insertField field.1 field.2 sorted) sorted).Perm
          (sorted ++ fields) ∧
        (fields.foldl (fun sorted field => insertField field.1 field.2 sorted) sorted).Pairwise
          (·.1 < ·.1) := by
    induction fields generalizing sorted with
    | nil => simpa using ordered
    | cons field rest ih =>
      have placed := perm_insertField field.1 field.2 sorted
      have moved : (insertField field.1 field.2 sorted ++ rest).Perm (sorted ++ field :: rest) :=
        (placed.append_right rest).trans List.perm_middle.symm
      have new : field.1 ∉ sorted.map (·.1) := by
        rw [List.map_append, List.nodup_append] at distinct
        intro member
        exact distinct.2.2 _ member field.1 (by simp) rfl
      obtain ⟨perm, pairwise⟩ := ih _ (pairwise_insertField field.2 new ordered)
        ((moved.map _).nodup_iff.2 distinct)
      exact ⟨perm.trans moved, pairwise⟩
  exact ⟨_, rfl, sorts fields [] .nil distinct⟩

end Json

end DocRefs
