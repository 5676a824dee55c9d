import DocRefs.Turns
import DocRefs.Yaml.Token

/-!
# Lexer state

A key is recognised only when its colon comes, after its own token was read. Each flow level
therefore keeps one *key candidate*: the place where a key would begin and the number of the token
there. A token can be settled once no possible candidate has its number, because nothing can be put
in front of it any more. Indentation is a stack of enclosing indents; an entry that does not end a
block is the one column that content after an indicator may be indented by.
-/
namespace DocRefs.Yaml

/-- A token that becomes a mapping key if a colon follows in time. -/
structure KeyCandidate where
  possible : Bool := false
  /-- The block structure asks for a key here. -/
  required : Bool := false
  number : Nat := 0
  mark : Mark := {}
  deriving Repr, Inhabited

/-- The candidate given up. -/
def KeyCandidate.expired (candidate : KeyCandidate) : KeyCandidate :=
  { candidate with possible := false }

structure Indent where
  /-- The indent to go back to. -/
  outer : Int
  endsBlock : Bool
  deriving Repr

structure Lexer where
  cursor : Cursor
  /-- No loop takes more turns than the text has characters. -/
  turns : Turns
  settled : Array Token := #[]
  pending : Array Token := #[]
  /-- One candidate for each flow level, the innermost first. -/
  candidates : List KeyCandidate := [{}]
  keyAllowed : Bool := true
  indent : Int := -1
  indents : List Indent := []
  flowLevel : Nat := 0
  /-- Where a colon needs no separator behind it, because a quoted key or a collection ends. -/
  adjacentValueAt : Nat := 0
  /-- An explicit flow mapping or key indicator came last, so a pair needs no mapping of its own. -/
  mappingOpened : Bool := false
  /-- For each open flow sequence, whether a single pair without braces is open in it. -/
  barePairs : List Bool := []
  ended : Bool := false

/-- Flow collections may be nested this deep. -/
def flowDepthLimit : Nat := 255

/-- A key must meet its colon within this many characters. -/
def keySpan : Nat := 1024

abbrev Lex := StateT Lexer (Except Malformed)

namespace Lex

def cursor : Lex Cursor := return (← get).cursor

def mark : Lex Mark := return (← get).cursor.mark

def peek : Lex Char := return (← get).cursor.peek

def move (step : Cursor → Cursor) : Lex Unit :=
  modify fun s => { s with cursor := step s.cursor }

def failAt {α : Type} (mark : Mark) (fault : Fault) : Lex α :=
  throw ⟨mark, fault⟩

def fail {α : Type} (fault : Fault) : Lex α := do failAt (← mark) fault

def inFlow : Lex Bool := return (← get).flowLevel > 0

def allowKey : Lex Unit := modify fun s => { s with keyAllowed := true }

def disallowKey : Lex Unit := modify fun s => { s with keyAllowed := false }

/-- Takes a run of characters. -/
def takeRun (p : Char → Bool) : Lex (List Char) := do
  let (run, next) := (← cursor).takeRun p
  move fun _ => next
  return run

/-- Puts a token behind those that are pending. -/
def emit (mark : Mark) (kind : TokenKind) : Lex Unit :=
  modify fun s => { s with pending := s.pending.push ⟨mark, kind⟩ }

/-- Puts a token in front of the token with a given number. -/
def emitBefore (number : Nat) (mark : Mark) (kind : TokenKind) : Lex Unit :=
  modify fun s =>
    -- A token with a candidate is never settled, so its place is among those that are pending.
    let place := number - s.settled.size
    { s with pending := s.pending.take place ++ #[⟨mark, kind⟩] ++ s.pending.drop place }

/-! ## Key candidates -/

/-- Gives up the candidate of this flow level. -/
def dropCandidate : Lex Unit := do
  match (← get).candidates with
  | [] => pure ()
  | candidate :: outer =>
    if candidate.possible && candidate.required then fail .keyExpected
    modify fun s => { s with candidates := candidate.expired :: outer }

/-- Makes the next token a candidate, where a key is allowed. -/
def saveCandidate : Lex Unit := do
  let s ← get
  if s.keyAllowed then
    let required := s.flowLevel == 0 && s.indent == s.cursor.column &&
      (s.indents.head?.map (·.endsBlock)).getD false
    dropCandidate
    let number := s.settled.size + s.pending.size
    let candidate : KeyCandidate := { possible := true, required, number, mark := s.cursor.mark }
    modify fun s => { s with candidates := candidate :: s.candidates.tail }

/-- Outside flow collections a candidate expires at the end of its line, or when it grows long. -/
def expireCandidates : Lex Unit := do
  let s ← get
  let now := s.cursor.mark
  let late (candidate : KeyCandidate) : Bool :=
    candidate.possible && s.flowLevel == 0 &&
      (candidate.mark.line < now.line || candidate.mark.index + keySpan < now.index)
  if s.candidates.any fun candidate => late candidate && candidate.required then
    fail .missingColon
  set { s with
    candidates := s.candidates.map fun candidate =>
      if late candidate then candidate.expired else candidate }

/-- The number of the first token that may still become a key. -/
def blockedFrom (s : Lexer) : Option Nat :=
  ((s.candidates.filter (·.possible)).map (·.number)).min?

/-- Moves the tokens that nothing can precede any more to the settled ones. -/
def settle : Lex Unit := modify fun s =>
  let count := match blockedFrom s with
    | some number => min (number - s.settled.size) s.pending.size
    | none => s.pending.size
  { s with settled := s.settled ++ s.pending.take count, pending := s.pending.drop count }

/-! ## Indentation -/

/-- Closes the blocks that are indented deeper than `column`. -/
def unindent (column : Int) : Lex Unit := do
  if ← inFlow then return
  for _ in (← get).turns do
    let s ← get
    if s.indent ≤ column then break
    match s.indents with
    | [] => break
    | top :: outer =>
      set { s with indent := top.outer, indents := outer }
      if top.endsBlock then emit s.cursor.mark .blockEnd

/-- Opens a block at `column` with the token `kind`, placed in front of token `number` if one is
given. -/
def openBlock (column : Nat) (number : Option Nat) (kind : TokenKind) (mark : Mark) : Lex Unit := do
  if ← inFlow then return
  -- A block that begins takes over the column that `indentOne` asked for.
  modify fun s => match s.indents with
    | top :: outer =>
      if s.indent ≤ column && !top.endsBlock then { s with indent := top.outer, indents := outer }
      else s
    | [] => s
  let s ← get
  if s.indent < column then
    set { s with indent := (column : Int), indents := ⟨s.indent, true⟩ :: s.indents }
    match number with
    | some number => emitBefore number mark kind
    | none => emit mark kind

/-- Asks content after an indicator to be indented by at least one more column. -/
def indentOne : Lex Unit := modify fun s =>
  if s.flowLevel == 0 && (s.indents.head?.map (·.endsBlock)).getD false then
    { s with indent := s.indent + 1, indents := ⟨s.indent, false⟩ :: s.indents }
  else s

/-- Takes back the columns that `indentOne` asked for. -/
def dropSoftIndents : Lex Unit := modify fun s =>
  let kept := s.indents.dropWhile fun indent => !indent.endsBlock
  match (s.indents.take (s.indents.length - kept.length)).getLast? with
  | some last => { s with indent := last.outer, indents := kept }
  | none => s

/-! ## White space and comments -/

/-- What stood between a token and the rest of its line. -/
structure Spacing where
  tabs : Bool
  spaces : Bool

/-- Skips blanks and a comment up to the end of the line. A tab ends the run where tabs are not
accepted. -/
def skipToLineEnd (acceptTabs : Bool) : Lex Spacing := do
  let mut seen : Spacing := ⟨false, false⟩
  for _ in (← get).turns do
    let c ← peek
    if c == ' ' then
      seen := { seen with spaces := true }
      move Cursor.takeBlank
    else if c == '\t' && acceptTabs then
      seen := { seen with tabs := true }
      move Cursor.takeBlank
    else if c == '#' then
      unless seen.tabs || seen.spaces do fail .commentSpacing
      move Cursor.skipLine
    else break
  return seen

/-- Skips white space, comments and line breaks in front of a token. A tab must not stand where
indentation counts, unless the line holds nothing else. -/
def skipToToken : Lex Unit := do
  for _ in (← get).turns do
    let s ← get
    let c := s.cursor.peek
    if c == '\t' && !s.indents.isEmpty && s.cursor.leading && s.cursor.column < s.indent then
      let _ ← skipToLineEnd true
      unless isBreakOrEnd (← peek) do fail .tabIndentation
    else if isBlank c then
      move Cursor.takeBlank
    else if isBreak c then
      move Cursor.takeBreak
      -- Outside flow collections a key may begin on every new line.
      unless ← inFlow do allowKey
    else if c == '#' then
      move Cursor.skipLine
    else break

/-- Skips what may stand behind a key indicator: spaces, comments and line breaks, at least one of
them. -/
def skipKeySpacing : Lex Unit := do
  let mut separated := false
  for _ in (← get).turns do
    let c ← peek
    if c == ' ' then
      move Cursor.takeBlank
      separated := true
    else if isBreak c then
      move Cursor.takeBreak
      unless ← inFlow do allowKey
      separated := true
    else if c == '#' then
      move Cursor.skipLine
    else break
  unless separated do fail .keyContext

end Lex

end DocRefs.Yaml
