import DocRefs.OrderedMap

/-!
# Configuration values

What a configuration text says, and the tables under construction while it is read. A table may be
made by its own header, by a dotted key, or in passing by a longer header; where it may be extended
depends on that alone, so a key never gets two values and a table never two headers.
-/
namespace DocRefs.Toml

inductive Value where
  | string (text : String)
  | integer (n : Int)
  | float
  | boolean (b : Bool)
  | date
  | array (items : List Value)
  | table (fields : List (String × Value))
  deriving Repr, Inhabited

/-- How a table came to be. -/
inductive Origin where
  /-- A longer header leads through it. -/
  | passed
  /-- A dotted key leads through it. -/
  | dotted
  /-- It has a header. -/
  | headed
  deriving DecidableEq, Repr

/-- A value under construction. -/
inductive Entry where
  | value (v : Value)
  | table (origin : Origin) (fields : List (String × Entry))
  /-- A list of tables; the last of them is open. -/
  | tables (earlier : List Value) (last : List (String × Entry))

abbrev Fields := List (String × Entry)

mutual

def Entry.close : Entry → Value
  | .value v => v
  | .table _ fields => .table (closeFields fields)
  | .tables earlier last => .array (earlier ++ [.table (closeFields last)])

def closeFields : List (String × Entry) → List (String × Value)
  | [] => []
  | (key, entry) :: rest => (key, entry.close) :: closeFields rest

end

namespace Fields

/-- Puts an entry under a key. -/
def put (key : String) (entry : Entry) (fields : Fields) : Fields := putEntry key entry fields

/-- Changes the table that a header's path leads to; the path may lead through open tables of any
origin. -/
def within (change : Fields → Option Fields) : List String → Fields → Option Fields
  | [], fields => change fields
  | key :: path, fields =>
    match fields.lookup key with
    | none => do return fields.put key (.table .passed (← within change path []))
    | some (.table origin inner) => do
      return fields.put key (.table origin (← within change path inner))
    | some (.tables earlier last) => do
      return fields.put key (.tables earlier (← within change path last))
    | some (.value _) => none

/-- Gives a dotted key its value. Tables with a header of their own cannot be extended so. -/
def assign (v : Value) : List String → Fields → Option Fields
  | [], _ => none
  | [key], fields =>
    match fields.lookup key with
    | none => some (fields.put key (.value v))
    | some _ => none
  | key :: path, fields =>
    match fields.lookup key with
    | none => do return fields.put key (.table .dotted (← assign v path []))
    | some (.table .headed _) => none
    | some (.table origin inner) => do
      return fields.put key (.table origin (← assign v path inner))
    | some (.tables ..) | some (.value _) => none

/-- The header of a table with the name `key`. -/
def openTable (key : String) (fields : Fields) : Option Fields :=
  match fields.lookup key with
  | none => some (fields.put key (.table .headed []))
  | some (.table .passed inner) => some (fields.put key (.table .headed inner))
  | some _ => none

/-- The header of one more table in the list `key`. -/
def appendTable (key : String) (fields : Fields) : Option Fields :=
  match fields.lookup key with
  | none => some (fields.put key (.tables [] []))
  | some (.tables earlier last) =>
    some (fields.put key (.tables (earlier ++ [.table (closeFields last)]) []))
  | some _ => none

end Fields

end DocRefs.Toml
