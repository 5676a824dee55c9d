import DocRefs.Toml.Scalar

/-!
# Configuration texts

A text is a list of headers and assignments. An assignment belongs to the table of the header above
it; its key may be dotted. What comes out is one table, or nothing if the text is malformed.
-/
namespace DocRefs.Toml

namespace Reader

def isBare (c : Char) : Bool := c.isAlphanum || c = '_' || c = '-'

/-- One name of a key, bare or quoted on one line. -/
def name : Reader String := do
  match ← peek? with
  | some '"' => do discard next; line '"' true
  | some '\'' => do discard next; line '\'' false
  | _ => do
    let text ← takeRun isBare
    guard !text.isEmpty
    return String.ofList text

/-- Names with dots between them. -/
def key : Reader (List String) := do
  let mut names := #[← name]
  for _ in ← turns do
    skipBlanks
    unless ← accept ['.'] do break
    skipBlanks
    names := names.push (← name)
  return names.toList

/-- Arrays and inline tables may be nested this deep. -/
def nestingLimit : Nat := 80

/-- Quoted text or a plain value. -/
def scalar : Reader Value := do
  match ← peek? with
  | some '"' => do discard next; return .string (← quoted '"')
  | some '\'' => do discard next; return .string (← quoted '\'')
  | _ => plain

/-- The items of an array, behind its bracket. -/
def array (item : Reader Value) : Reader Value := do
  let mut items := #[]
  for _ in ← turns do
    skipLines
    -- A comma may stand behind the last item.
    if ← accept [']'] then return .array items.toList
    items := items.push (← item)
    skipLines
    unless ← accept [','] do
      expect [']']
      return .array items.toList
  failure

/-- The fields of an inline table, behind its brace. -/
def inlineTable (item : Reader Value) : Reader Value := do
  let mut fields : Fields := []
  for _ in ← turns do
    skipLines
    if ← accept ['\x7d'] then return .table (closeFields fields)
    let path ← key
    skipBlanks
    expect ['=']
    skipBlanks
    fields ← fields.assign (← item) path
    skipLines
    unless ← accept [','] do
      expect ['\x7d']
      return .table (closeFields fields)
  failure

/-- A value with at most so many arrays and inline tables inside each other. -/
def value : Nat → Reader Value
  | 0 => scalar
  | depth + 1 => do
    match ← peek? with
    | some '[' => do discard next; array (value depth)
    | some '\x7b' => do discard next; inlineTable (value depth)
    | _ => scalar

/-- Takes the end of a line, with a comment or not; the end of the text is one too. -/
def endLine : Reader Unit := do
  skipBlanks
  skipComment
  unless ← acceptBreak do guard (← get).isEmpty

/-- A header behind its brackets, closed by `close`. -/
def header (close : List Char) : Reader (List String) := do
  skipBlanks
  let path ← key
  skipBlanks
  expect close
  return path

/-- The fields of a whole text. -/
def document : Reader Fields := do
  let mut fields : Fields := []
  let mut current : List String := []
  for _ in ← turns do
    skipLines
    if (← get).isEmpty then break
    -- The header names the table that is changed; the path to it may lead through others.
    if ← accept ['[', '['] then
      current ← header [']', ']']
      fields ← fields.within (Fields.appendTable (current.getLastD "")) current.dropLast
    else if ← accept ['['] then
      current ← header [']']
      fields ← fields.within (Fields.openTable (current.getLastD "")) current.dropLast
    else
      let path ← key
      skipBlanks
      expect ['=']
      skipBlanks
      let v ← value nestingLimit
      fields ← fields.within (Fields.assign v path) current
    endLine
  return fields

end Reader

/-- The table that a text describes. A byte order mark in front does not count. -/
def read? (text : String) : Option (List (String × Value)) :=
  let chars := text.toList
  let chars := if chars.head? = some '\uFEFF' then chars.tail else chars
  (Reader.document.run chars).map fun (fields, _) => closeFields fields

end DocRefs.Toml
