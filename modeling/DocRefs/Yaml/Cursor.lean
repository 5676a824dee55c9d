import DocRefs.Yaml.Character

/-!
# Positions and the reading cursor

A cursor is the text still to be read together with the mark where it begins. Taking characters is
the only way to move it, so a mark never runs ahead of the text; `take_shorter` is what bounds the
loops of the lexer.
-/
namespace DocRefs.Yaml

/-- A place in a text: characters before it, line from one, column from zero. -/
structure Mark where
  index : Nat := 0
  line : Nat := 1
  column : Nat := 0
  deriving DecidableEq, Repr, Inhabited

namespace Mark

/-- One character further on the same line. -/
def forward (m : Mark) : Mark := { m with index := m.index + 1, column := m.column + 1 }

/-- Past a line break: the first column of the next line. -/
def nextLine (m : Mark) : Mark := ⟨m.index + 1, m.line + 1, 0⟩

end Mark

structure Cursor where
  rest : List Char
  mark : Mark := {}
  /-- Nothing but blanks has been taken since the line began. -/
  leading : Bool := true
  deriving Repr, Inhabited

namespace Cursor

def ofString (text : String) : Cursor := { rest := text.toList }

/-- The next character, or the end mark. -/
def peek (c : Cursor) : Char := c.rest.headD endMark

/-- The character `n` places after the next one, or the end mark. -/
def peekAt (c : Cursor) (n : Nat) : Char := c.rest.getD n endMark

def column (c : Cursor) : Nat := c.mark.column

/-- Takes a character that leaves the line's leading blank part as it is. -/
def takeBlank (c : Cursor) : Cursor :=
  { c with rest := c.rest.tail, mark := c.mark.forward }

/-- Takes a character that is not blank. -/
def take (c : Cursor) : Cursor :=
  { rest := c.rest.tail, mark := c.mark.forward, leading := false }

def takeMany (c : Cursor) : Nat → Cursor
  | 0 => c
  | n + 1 => c.take.takeMany n

/-- Takes one line break; a carriage return and a line feed together are one break. -/
def takeBreak (c : Cursor) : Cursor :=
  match c.rest with
  | '\r' :: '\n' :: rest => { rest, mark := c.mark.forward.nextLine, leading := true }
  | first :: rest =>
    if isBreak first then { rest, mark := c.mark.nextLine, leading := true } else c
  | [] => c

/-- Takes the longest run of characters that satisfy `p`, and says what it was. -/
def takeRun (c : Cursor) (p : Char → Bool) : List Char × Cursor :=
  let run := c.rest.takeWhile p
  (run, c.takeMany run.length)

/-- Skips blanks. -/
def skipBlanks (c : Cursor) : Cursor :=
  let count := (c.rest.takeWhile isBlank).length
  { c with
    rest := c.rest.drop count
    mark := { c.mark with index := c.mark.index + count, column := c.mark.column + count } }

/-- Skips to the end of the line. -/
def skipLine (c : Cursor) : Cursor :=
  (c.takeRun fun ch => !isBreakOrEnd ch).2

/-- The next three characters are `mark` and a separator follows them. -/
def atTriple (c : Cursor) (mark : Char) : Bool :=
  c.peek == mark && c.peekAt 1 == mark && c.peekAt 2 == mark && isGap (c.peekAt 3)

def atDocumentStart (c : Cursor) : Bool := c.atTriple '-'

def atDocumentEnd (c : Cursor) : Bool := c.atTriple '.'

/-- A document marker stands here, at the start of a line. -/
def atDocumentMarker (c : Cursor) : Bool :=
  c.column == 0 && (c.atDocumentStart || c.atDocumentEnd)

theorem take_shorter (c : Cursor) (more : c.rest ≠ []) :
    c.take.rest.length < c.rest.length := by
  cases c with
  | mk rest mark leading =>
    cases rest with
    | nil => exact absurd rfl more
    | cons first rest => simp [take]

theorem takeRun_append (c : Cursor) (p : Char → Bool) :
    (c.takeRun p).1 ++ c.rest.dropWhile p = c.rest := by
  simp [takeRun]

end Cursor

end DocRefs.Yaml
