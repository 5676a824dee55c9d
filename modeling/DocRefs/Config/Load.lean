import DocRefs.Config
import DocRefs.Location.FileTree
import DocRefs.Toml.Document

/-!
# Reading configurations

A configuration text holds a table; fields that it does not name keep their defaults, and names that
mean nothing are passed over. A record may be written as a table or as the list of its fields in
order.
-/
namespace DocRefs.Config

open Toml (Value)

/-! ## Fields -/

/-- The widest whole numbers that a text may hold. -/
def fitsNumber (n : Int) : Bool := -(Nat.pow 2 127 : Int) ≤ n && n < Nat.pow 2 128

mutual

/-- No number in the value is too wide. -/
def isSound : Value → Bool
  | .integer n => fitsNumber n
  | .array items => areSound items
  | .table fields => areSoundFields fields
  | _ => true

def areSound : List Value → Bool
  | [] => true
  | item :: rest => isSound item && areSound rest

def areSoundFields : List (String × Value) → Bool
  | [] => true
  | (_, v) :: rest => isSound v && areSoundFields rest

end

/-- The named fields of a record. A date is a record without fields. -/
def record? (names : List String) : Value → Option (List (String × Value))
  | .table fields => some fields
  | .array items => some (names.zip items)
  | .date => some []
  | _ => none

/-- A field's value read by `read`, or the default where there is no such field. -/
def field? {α : Type} (fields : List (String × Value)) (name : String) (default : Option α)
    (read : Value → Option α) : Option α :=
  match fields.lookup name with
  | some v => read v
  | none => default

def text? : Value → Option String
  | .string text => some text
  | _ => none

def flag? : Value → Option Bool
  | .boolean b => some b
  | _ => none

def count? : Value → Option Nat
  | .integer n => if 0 ≤ n ∧ n < Nat.pow 2 64 then some n.toNat else none
  | _ => none

def url? : Value → Option Location.Url
  | .string text => Location.Url.parse? text
  | _ => none

def parallel? (v : Value) : Option Parallel := do
  let fields ← record? ["enabled", "max_concurrency"] v
  return {
    enabled := ← field? fields "enabled" (some true) flag?
    maxWorkers := ← field? fields "max_concurrency" (some none) fun v => (count? v).map some }

def category? (v : Value) : Option LookupCategory := do
  let fields ← record? ["name", "pointer"] v
  return ⟨← field? fields "name" none text?, ← field? fields "pointer" none text?⟩

def categories? : Value → Option (List LookupCategory)
  | .array items => items.mapM category?
  | _ => none

def ofFields? (fields : List (String × Value)) : Option Config := do
  guard (areSoundFields fields)
  return {
    specPath := ← field? fields "spec_path" (some none) fun v => (text? v).map some
    baseUrl := ← field? fields "base_url" (some none) fun v => (url? v).map some
    allowCircular := ← field? fields "allow_circular_references" (some false) flag?
    extensionPrefix := ← field? fields "extension_prefix" (some "x-") text?
    categories := ← field? fields "lookup_categories" (some LookupCategory.defaults) categories?
    parallel := ← field? fields "parallel" (some {}) parallel? }

/-! ## Texts and files -/

/-- The configuration that a text describes. -/
def parse (text : String) : Except RefError Config :=
  match Toml.read? text with
  | none => .error (.configuration (.malformed "not a table of fields"))
  | some fields =>
    match ofFields? fields with
    | none => .error (.configuration (.malformed "a field has the wrong type"))
    | some config =>
      match config.fault? with
      | some fault => .error (.configuration fault)
      | none => .ok config

/-- The configuration that a file holds. -/
def load (files : FileTree) (path : String) : Except RefError Config :=
  match files.read path with
  | .error fault => .error (.file path fault)
  | .ok text => parse text

/-- The path of a configuration file in a directory. -/
def fileIn (directory : List Char) : String :=
  let name := configFileName.toList
  String.ofList <|
    if directory.isEmpty || directory.getLast? = some '/' then directory ++ name
    else directory ++ '/' :: name

/-- How many directories are searched. -/
def searchedDirectories : Nat := 10

/-- The first configuration in a directory or one above it that loads, or else the defaults. -/
def loadFrom (files : FileTree) (start : String) : Config :=
  ((Location.Path.ancestors searchedDirectories start.toList).findSome? fun directory =>
    (load files (fileIn directory)).toOption).getD {}

end DocRefs.Config
