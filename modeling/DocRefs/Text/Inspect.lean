import DocRefs.Text.Hex
import DocRefs.Text.Inspect.Table

/-!
# Values in readable form

Quoted texts, lists, maps and records on one line, for people to look at.
-/
namespace DocRefs.Text

/-- The character does not show. -/
def isHidden (c : Char) : Bool :=
  let code := c.toNat
  code < 0x20 || code = 0x7F || (0x80 ≤ code && hiddenRuns.any fun (first, last) =>
    first ≤ code && code ≤ last)

/-- A number in hexadecimal digits without leading zeros. -/
def hexNumber (n : Nat) : List Char := Nat.toDigits 16 n

/-- A character inside quotation marks. -/
def quotedChar (c : Char) : List Char :=
  match c with
  | '\x00' => ['\\', '0']
  | '\t' => ['\\', 't']
  | '\n' => ['\\', 'n']
  | '\r' => ['\\', 'r']
  | '"' => ['\\', '"']
  | '\\' => ['\\', '\\']
  | c => if isHidden c then ['\\', 'u', '\x7b'] ++ hexNumber c.toNat ++ ['\x7d'] else [c]

def quoted (text : String) : String :=
  String.ofList ('"' :: text.toList.flatMap quotedChar ++ ['"'])

def listed (items : List String) : String := "[" ++ ", ".intercalate items ++ "]"

/-- Names with their values in braces. -/
def braced (gap : String) (fields : List (String × String)) : String :=
  let rows := fields.map fun (name, value) => name ++ ": " ++ value
  "\x7b" ++ gap ++ ", ".intercalate rows ++ gap ++ "\x7d"

def mapped (entries : List (String × String)) : String := braced "" entries

def record (name : String) (fields : List (String × String)) : String :=
  name ++ " " ++ braced " " fields

/-- A value that may be missing. -/
def optional : Option String → String
  | some text => "Some(" ++ text ++ ")"
  | none => "None"

end DocRefs.Text
