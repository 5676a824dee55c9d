import DocRefs.Text.Hex
import DocRefs.Yaml.Token.Lexer

/-!
# Scalar tokens

Plain and quoted scalars fold line breaks: a single break between two pieces of content reads as a
space, and of more breaks the first is dropped. Block scalars keep the line structure of a literal
and fold that of a folded scalar, except next to lines that begin with a blank.
-/
namespace DocRefs.Yaml

/-- The line breaks met since the last content: the first one, and those behind it. -/
structure Breaks where
  first : Bool := false
  further : Nat := 0

namespace Breaks

/-- Counts a break. It is a further one if the line it ends was itself blank. -/
def add (b : Breaks) (blankLine : Bool) : Breaks :=
  if blankLine then { b with further := b.further + 1 } else { b with first := true }

/-- How folded breaks read. -/
def folded (b : Breaks) : List Char :=
  if b.further = 0 then (if b.first then [' '] else []) else List.replicate b.further '\n'

theorem folded_single : (Breaks.add {} false).folded = [' '] := rfl

theorem folded_double : ((Breaks.add {} false).add true).folded = ['\n'] := rfl

end Breaks

namespace Lex

/-! ## Plain scalars -/

/-- The character here can go on a plain scalar. -/
def continuesPlain (s : Lexer) : Bool :=
  let c := s.cursor.peek
  let next := s.cursor.peekAt 1
  if c == ':' then !(isGap next || (s.flowLevel > 0 && isFlow next))
  else !(s.flowLevel > 0 && isFlow c)

/-- Takes the characters up to the next blank, break or indicator. -/
def takePlainRun : Lex (List Char) := do
  let mut text : List Char := []
  for _ in (← get).turns do
    let s ← get
    if isGap s.cursor.peek || !continuesPlain s then break
    text := s.cursor.peek :: text
    move Cursor.take
  return text.reverse

def plainScalar : Lex Token := do
  dropSoftIndents
  let indent := (← get).indent + 1
  let start ← mark
  if (← inFlow) && start.column < indent then failAt start .indentation
  let mut text : List Char := []
  let mut breaks : Breaks := {}
  let mut blanks : List Char := []
  for _ in (← get).turns do
    let c ← cursor
    if c.atDocumentMarker || c.peek == '#' then break
    if (← inFlow) && c.peek == '-' && isFlow (c.peekAt 1) then fail .flowDash
    -- Content joins what was read before by the breaks, or by the blanks of the line.
    if !isGap c.peek && continuesPlain (← get) then
      text := text ++ (if c.leading then breaks.folded else blanks)
      breaks := {}
      blanks := []
      text := text ++ (← takePlainRun)
    let stop ← peek
    unless isBlank stop || isBreak stop do break
    for _ in (← get).turns do
      let c ← cursor
      if isBlank c.peek then
        -- Blanks behind content may turn out to be part of it; indentation never is.
        if !c.leading then
          blanks := blanks ++ [c.peek]
          move Cursor.takeBlank
        else if c.column < indent && c.peek == '\t' then
          let _ ← skipToLineEnd true
          unless isBreakOrEnd (← peek) do failAt start .tabIndentation
        else move Cursor.takeBlank
      else if isBreak c.peek then
        blanks := []
        breaks := breaks.add c.leading
        move Cursor.takeBreak
      else break
    -- A line that is not indented enough is no continuation.
    if !(← inFlow) && (← cursor).column < indent then break
  if (← cursor).leading then allowKey
  return ⟨start, .scalar .plain (String.ofList text)⟩

/-! ## Quoted scalars -/

/-- The characters that single-letter escapes stand for. -/
def escapeLetter? : Char → Option Char
  | '0' => some '\x00'
  | 'a' => some '\x07'
  | 'b' => some '\x08'
  | 't' => some '\t'
  | '\t' => some '\t'
  | 'n' => some '\n'
  | 'v' => some '\x0b'
  | 'f' => some '\x0c'
  | 'r' => some '\r'
  | 'e' => some '\x1b'
  | ' ' => some ' '
  | '"' => some '"'
  | '/' => some '/'
  | '\\' => some '\\'
  | 'N' => some (Char.ofNat 0x85)
  | '_' => some (Char.ofNat 0xA0)
  | 'L' => some (Char.ofNat 0x2028)
  | 'P' => some (Char.ofNat 0x2029)
  | _ => none

/-- How many hexadecimal digits follow a numeric escape. -/
def escapeDigits? : Char → Option Nat
  | 'x' => some 2
  | 'u' => some 4
  | 'U' => some 8
  | _ => none

/-- The character with a given code point, if there is one. -/
def charOfCode? (code : Nat) : Option Char :=
  if code.isValidChar then some (Char.ofNat code) else none

/-- Reads hexadecimal digits as a number. -/
def hexValue? (digits : List Char) : Option Nat :=
  digits.foldlM (fun value digit => (Text.hexDigit? digit).map (value * 16 + ·)) 0

/-- Takes an escape sequence. -/
def takeEscape (start : Mark) : Lex Char := do
  let letter := (← cursor).peekAt 1
  match escapeLetter? letter, escapeDigits? letter with
  | some c, _ =>
    move (·.takeMany 2)
    return c
  | none, some count =>
    move (·.takeMany 2)
    let c ← cursor
    let digits := (List.range count).map c.peekAt
    match hexValue? digits >>= charOfCode? with
    | some ch =>
      move (·.takeMany count)
      return ch
    | none => failAt start .escapeCode
  | none, none => failAt start .escape

/-- Takes the content up to white space or the closing quote. The flag says that an escaped line
break ended the run. -/
def takeQuotedRun (single : Bool) (start : Mark) : Lex (List Char × Bool) := do
  let mut text : List Char := []
  for _ in (← get).turns do
    let c ← cursor
    if isGap c.peek then break
    if single then
      if c.peek == '\'' then
        if c.peekAt 1 == '\'' then
          text := '\'' :: text
          move (·.takeMany 2)
        else break
      else
        text := c.peek :: text
        move Cursor.take
    else if c.peek == '"' then break
    else if c.peek == '\\' then
      if isBreak (c.peekAt 1) then
        move (·.take.takeBreak)
        return (text.reverse, true)
      text := (← takeEscape start) :: text
    else
      text := c.peek :: text
      move Cursor.take
  return (text.reverse, false)

def quotedScalar (single : Bool) : Lex Token := do
  let start ← mark
  let quote := if single then '\'' else '"'
  let mut text : List Char := []
  move Cursor.take
  for _ in (← get).turns do
    let c ← cursor
    if c.atDocumentMarker then failAt start .markerInQuote
    if isEnd c.peek then failAt start .unterminatedQuote
    if c.column < (← get).indent then failAt start .indentation
    let (run, joined) ← takeQuotedRun single start
    text := text ++ run
    if (← peek) == quote then break
    let mut folding := joined
    let mut breaks : Breaks := {}
    let mut blanks : List Char := []
    for _ in (← get).turns do
      let c ← cursor
      if isBlank c.peek then
        if folding then
          if c.peek == '\t' && c.column < (← get).indent then fail .tabIndentation
        else blanks := blanks ++ [c.peek]
        move Cursor.takeBlank
      else if isBreak c.peek then
        blanks := []
        breaks := breaks.add folding
        folding := true
        move Cursor.takeBreak
      else break
    text := text ++ (if folding then breaks.folded else blanks)
  move Cursor.take
  let _ ← skipToLineEnd true
  let c ← peek
  let s ← get
  -- Only what separates or closes, a colon or the end of the line may follow the quote.
  let closes := s.flowLevel > 0 && (c == ',' || c == '}' || c == ']')
  let isKey := c == ':' && (s.flowLevel > 0 || start.line == s.cursor.mark.line)
  unless closes || isKey || isBreakOrEnd c do fail .quoteTail
  return ⟨start, .scalar (if single then .singleQuoted else .doubleQuoted) (String.ofList text)⟩

/-! ## Block scalars -/

/-- What becomes of the line breaks at the end of a block scalar. -/
inductive Chomping where
  | strip
  | clip
  | keep
  deriving DecidableEq

def chompingIndicator? : Char → Option Chomping
  | '+' => some .keep
  | '-' => some .strip
  | _ => none

/-- Takes an indentation indicator, if there is one. -/
def takeIndentIndicator (start : Mark) : Lex Nat := do
  let c ← peek
  if !c.isDigit then return 0
  if c == '0' then failAt start .indentationIndicator
  move Cursor.take
  return c.toNat - '0'.toNat

/-- Takes a chomping indicator, if there is one. -/
def takeChomping? : Lex (Option Chomping) := do
  match chompingIndicator? (← peek) with
  | some chomping =>
    move Cursor.take
    return some chomping
  | none => return none

/-- Takes the header behind the block indicator: chomping and indentation in either order. -/
def takeBlockHeader (start : Mark) : Lex (Chomping × Nat) := do
  match ← takeChomping? with
  | some chomping => return (chomping, ← takeIndentIndicator start)
  | none =>
    let width ← takeIndentIndicator start
    if width = 0 then return (.clip, 0)
    return ((← takeChomping?).getD .clip, width)

/-- Skips empty lines and the indentation of the next line, and counts the lines. -/
def skipBlockIndent (indent : Nat) : Lex Nat := do
  let mut lines := 0
  for _ in (← get).turns do
    let c ← cursor
    if c.column < indent && c.peek == ' ' then move Cursor.takeBlank
    else if isBreak c.peek then
      move Cursor.takeBreak
      lines := lines + 1
    else break
  return lines

/-- Finds the indentation of a block scalar: that of its first line with content, or of the widest
blank line before it, but at least what the enclosing block asks for. -/
def detectBlockIndent : Lex (Nat × Nat) := do
  let mut lines := 0
  let mut widest := 0
  for _ in (← get).turns do
    let c ← cursor
    if c.peek == ' ' then move Cursor.takeBlank
    else
      widest := max widest c.column
      if isBreak c.peek then
        move Cursor.takeBreak
        lines := lines + 1
      else break
  let enclosing := (← get).indent
  let indent := max widest (enclosing + 1).toNat
  return (if enclosing > 0 then max indent 1 else indent, lines)

def newlines (count : Nat) : List Char := List.replicate count '\n'

def blockScalar (literal : Bool) : Lex Token := do
  let start ← mark
  let style : ScalarStyle := if literal then .literal else .folded
  move Cursor.take
  dropSoftIndents
  let (chomping, width) ← takeBlockHeader start
  let _ ← skipToLineEnd true
  unless isBreakOrEnd (← peek) do failAt start .blockHeaderTail
  let headerEnds := isBreak (← peek)
  move Cursor.takeBreak
  if (← peek) == '\t' then failAt start .blockLeadingTab
  let enclosing := (← get).indent
  let (indent, emptyLines) ←
    if width = 0 then detectBlockIndent
    else do
      let indent := if enclosing ≥ 0 then enclosing.toNat + width else width
      pure (indent, ← skipBlockIndent indent)
  let here ← cursor
  -- A scalar without content has only its trailing breaks.
  if isEnd here.peek then
    let header := if headerEnds then 1 else 0
    let kept :=
      if chomping = .strip || here.mark.line == start.line then 0
      else if chomping = .clip || emptyLines = 0 then header
      else emptyLines
    return ⟨start, .scalar style (String.ofList (newlines kept))⟩
  if here.column < indent && (here.column : Int) > enclosing then fail .blockLineIndentation
  let mut text : List Char := []
  let mut pendingBreak := false
  let mut emptyLines := emptyLines
  let mut afterBlank := false
  for _ in (← get).turns do
    let c ← cursor
    -- A line that is not indented by exactly this much ends the scalar.
    if c.column != indent || isEnd c.peek then break
    if indent = 0 && c.atDocumentEnd then break
    let blank := isBlank c.peek
    -- Breaks stay as they are next to a line that begins with a blank.
    let folds := !literal && pendingBreak && !afterBlank && !blank
    let gap :=
      if folds then (if emptyLines = 0 then [' '] else newlines emptyLines)
      else newlines ((if pendingBreak then 1 else 0) + emptyLines)
    pendingBreak := false
    emptyLines := 0
    afterBlank := blank
    let line ← takeRun fun ch => !isBreakOrEnd ch
    text := text ++ gap ++ line
    if isEnd (← peek) then break
    move Cursor.takeBreak
    pendingBreak := true
    emptyLines := ← skipBlockIndent indent
  let tail ← cursor
  if chomping ≠ .strip then
    if pendingBreak then text := text ++ ['\n']
    -- A last line of nothing but its indentation counts as a line.
    if isEnd tail.peek && tail.column ≥ max indent 1 then text := text ++ ['\n']
  if chomping = .keep then text := text ++ newlines emptyLines
  return ⟨here.mark, .scalar style (String.ofList text)⟩

end Lex

end DocRefs.Yaml
