import DocRefs.Text.Hex
import DocRefs.Turns

/-!
# Reading text from the front

A reader takes characters off the front of a text, or fails. It never puts any back, so a loop that
takes at least one character a turn ends within as many turns as there are characters.
-/
namespace DocRefs.Toml

/-- Reads from the characters that are left. -/
abbrev Reader := StateT (List Char) Option

namespace Reader

/-- One more turn than there are characters. -/
def turns : Reader Turns := return ⟨(← get).length + 1⟩

def peek? : Reader (Option Char) := return (← get).head?

def next : Reader Char := do
  match ← get with
  | [] => failure
  | c :: rest => do set rest; return c

/-- The longest run of characters that satisfy `p`. -/
def takeRun (p : Char → Bool) : Reader (List Char) :=
  modifyGet fun text => (text.takeWhile p, text.dropWhile p)

/-- Takes a given text, if it comes next. -/
def accept (text : List Char) : Reader Bool := do
  let rest ← get
  if text.isPrefixOf rest then do
    set (rest.drop text.length)
    return true
  else return false

def expect (text : List Char) : Reader Unit := do
  unless ← accept text do failure

def isBlank (c : Char) : Bool := c = ' ' || c = '\t'

/-- A control character, which may stand nowhere; the tab is none. -/
def isControl (c : Char) : Bool := (c.toNat < 0x20 && c ≠ '\t') || c.toNat = 0x7F

def skipBlanks : Reader Unit := do discard <| takeRun isBlank

/-- Takes a line break, if one comes next. -/
def acceptBreak : Reader Bool := do
  if ← accept ['\n'] then return true else accept ['\r', '\n']

/-- Takes a comment, if one comes next. -/
def skipComment : Reader Unit := do
  if ← accept ['#'] then
    discard <| takeRun fun c => !isControl c

/-- Takes blanks, comments and line breaks. -/
def skipLines : Reader Unit := do
  for _ in ← turns do
    skipBlanks
    skipComment
    unless ← acceptBreak do break

end Reader

end DocRefs.Toml
