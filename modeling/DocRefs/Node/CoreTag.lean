import DocRefs.Number.Binary64.Text
import DocRefs.Text.Hex

/-!
# Core tags

The tags that plain text is given by its spelling. The classes are tried in a fixed order and each
is a decidable property of the text alone, so a text has exactly one inferred tag.
-/
namespace DocRefs.CoreTag

def null : String := "!!null"
def bool : String := "!!bool"
def int : String := "!!int"
def float : String := "!!float"
def str : String := "!!str"
def map : String := "!!map"
def seq : String := "!!seq"
def merge : String := "!!merge"

def nullWords : List String := ["", "~", "null", "Null", "NULL"]

def boolWords : List String := ["true", "True", "TRUE", "false", "False", "FALSE"]

/-- The spellings of the values that are not finite. -/
def floatWords : List String :=
  [".inf", ".Inf", ".INF", "+.inf", "-.inf", "-.Inf", "-.INF", ".nan", ".NaN", ".NAN"]

def isHexDigit (c : Char) : Bool := (Text.hexDigit? c).isSome

def isOctalDigit (c : Char) : Bool := '0' ≤ c && c ≤ '7'

/-- At least one character, and all of a class. -/
def allOf (p : Char → Bool) (text : List Char) : Bool := !text.isEmpty && text.all p

def isIntegerText : List Char → Bool
  | '0' :: 'x' :: digits => allOf isHexDigit digits
  | '0' :: 'o' :: digits => allOf isOctalDigit digits
  | text => allOf Char.isDigit (Binary64.takeSign text).2

def isFloatCharacter (c : Char) : Bool :=
  c.isDigit || c == '.' || c == 'e' || c == 'E' || c == '+' || c == '-'

/-- A decimal with an optional sign. -/
def isFloatText (text : List Char) : Bool :=
  text.all isFloatCharacter && text.any Char.isDigit &&
    (Binary64.decimal? (Binary64.takeSign text).2).isSome

/-- The tag of a plain scalar. -/
def infer (text : String) : String :=
  if nullWords.contains text then null
  else if boolWords.contains text then bool
  else if floatWords.contains text then float
  else if isIntegerText text.toList then int
  else if isFloatText text.toList then float
  else str

/-- Nothing but these five tags is inferred. -/
theorem infer_mem (text : String) : infer text ∈ [null, bool, float, int, str] := by
  unfold infer
  repeat' split
  all_goals decide

end DocRefs.CoreTag
