/-!
# Character classes of the YAML grammar

The classes are closed under the convention that U+0000 stands for the end of the text: a reader
that looks past the last character sees it, and a text that holds it ends there.
-/
namespace DocRefs.Yaml

/-- What a reader sees past the last character. -/
def endMark : Char := '\x00'

def isEnd (c : Char) : Bool := c == endMark

def isBreak (c : Char) : Bool := c == '\n' || c == '\r'

def isBreakOrEnd (c : Char) : Bool := isBreak c || isEnd c

def isBlank (c : Char) : Bool := c == ' ' || c == '\t'

/-- Blank, line break or end: what separates tokens. -/
def isGap (c : Char) : Bool := isBlank c || isBreakOrEnd c

/-- The indicators that structure a flow collection. -/
def isFlow (c : Char) : Bool :=
  c == ',' || c == '[' || c == ']' || c == '{' || c == '}'

/-- Letters, digits, `-` and `_`: the characters of a tag handle or a directive name. -/
def isHandle (c : Char) : Bool := c.isAlphanum || c == '_' || c == '-'

def isByteOrderMark (c : Char) : Bool := c.toNat == 0xFEFF

/-- What may stand in an anchor name. -/
def isAnchor (c : Char) : Bool :=
  !isGap c && !isFlow c && !isByteOrderMark c

/-- What may stand in a URI, with `%` for an escaped byte. -/
def isUri (c : Char) : Bool :=
  c.isAlphanum || "-#;/?:@&=+$,_.!~*'()[]%".toList.contains c

/-- What may stand in the suffix of a tag. -/
def isTag (c : Char) : Bool := isUri c && !isFlow c && c != '!'

theorem isBreakOrEnd_endMark : isBreakOrEnd endMark = true := by decide

/-- A separator is never part of an anchor name. -/
theorem isAnchor_of_isGap {c : Char} (gap : isGap c = true) : isAnchor c = false := by
  simp [isAnchor, gap]

end DocRefs.Yaml
