import DocRefs.Yaml.Token.Property
import DocRefs.Yaml.Token.Scalar

/-!
# The token stream of a text

`TokenStream.ofString` reads one token group after another. After each group the tokens that
nothing can precede any more are settled, so that a fault further on does not take them back.
-/
namespace DocRefs.Yaml

namespace Lex

/-- Ends a pair without braces in the innermost flow sequence, if one is open. -/
def endBarePair : Lex Unit := do
  let s ← get
  if s.barePairs.head? = some true then
    set { s with mappingOpened := false, barePairs := false :: s.barePairs.tail }
    emit s.cursor.mark .flowMappingEnd

def streamEnd : Lex Unit := do
  let here ← mark
  -- The last line counts as ended, whether a break ends it or not.
  unless here.column = 0 do
    move fun c => { c with mark := ⟨here.index, here.line + 1, 0⟩ }
  let s ← get
  if s.candidates.any fun candidate => candidate.required && candidate.possible then
    fail .keyExpected
  set { s with candidates := s.candidates.map KeyCandidate.expired }
  unindent (-1)
  disallowKey
  emit (← mark) .streamEnd
  modify fun s => { s with ended := true }

def directive : Lex Unit := do
  unindent (-1)
  dropCandidate
  disallowKey
  let token ← directiveToken
  emit token.mark token.kind

def documentMarker (kind : TokenKind) : Lex Unit := do
  unindent (-1)
  dropCandidate
  disallowKey
  let start ← mark
  move (·.takeMany 3)
  emit start kind

def flowStart (kind : TokenKind) : Lex Unit := do
  saveCandidate
  indentOne
  let start ← mark
  if (← get).flowLevel ≥ flowDepthLimit then fail .flowDepth
  modify fun s => { s with
    candidates := {} :: s.candidates
    flowLevel := s.flowLevel + 1
    mappingOpened := s.mappingOpened || kind == .flowMappingStart
    barePairs := if kind == .flowMappingStart then s.barePairs else false :: s.barePairs }
  allowKey
  move Cursor.take
  let _ ← skipToLineEnd true
  emit start kind

def flowEnd (kind : TokenKind) : Lex Unit := do
  dropCandidate
  modify fun s =>
    if s.flowLevel > 0 then
      { s with flowLevel := s.flowLevel - 1, candidates := s.candidates.tail }
    else s
  disallowKey
  if kind == .flowSequenceEnd then
    endBarePair
    modify fun s => { s with barePairs := s.barePairs.tail }
  let start ← mark
  move Cursor.take
  let _ ← skipToLineEnd true
  -- The collection may be a key of the one around it, with its colon right behind.
  if ← inFlow then
    modify fun s => { s with adjacentValueAt := s.cursor.mark.index }
  emit start kind

def flowEntry : Lex Unit := do
  dropCandidate
  allowKey
  endBarePair
  let start ← mark
  move Cursor.take
  let _ ← skipToLineEnd true
  emit start .flowEntry

def blockEntry : Lex Unit := do
  if ← inFlow then fail .blockEntry
  let s ← get
  unless s.keyAllowed do fail .blockEntry
  match s.pending.back? with
  | some last =>
    -- A property in front of the first column would belong to nothing.
    if last.kind.isProperty && s.cursor.column = 0 && last.mark.column = 0 && s.indent > -1 then
      failAt last.mark .anchorIndentation
  | none => pure ()
  let start := s.cursor.mark
  move Cursor.take
  openBlock start.column none .blockSequenceStart start
  let spacing ← skipToLineEnd true
  let c ← cursor
  if spacing.tabs && c.peek == '-' && isGap (c.peekAt 1) then fail .blockEntrySpacing
  let _ ← skipToLineEnd false
  -- What follows on a line of its own must be indented against the indicator.
  let c ← peek
  if isBreak c || isFlow c then indentOne
  dropCandidate
  allowKey
  emit (← mark) .blockEntry

def explicitKey : Lex Unit := do
  let start ← mark
  if ← inFlow then
    modify fun s => { s with mappingOpened := true }
  else
    unless (← get).keyAllowed do fail .keyContext
    openBlock start.column none .blockMappingStart start
  dropCandidate
  if ← inFlow then disallowKey else allowKey
  move Cursor.take
  skipKeySpacing
  if (← peek) == '\t' then fail .tabIndentation
  emit start .key

def value : Lex Unit := do
  let s ← get
  let start := s.cursor.mark
  let candidate := s.candidates.headD {}
  -- A pair in a flow sequence that no brace and no key indicator has opened.
  let bare := !s.barePairs.isEmpty && !s.mappingOpened
  if bare then
    modify fun s => { s with barePairs := true :: s.barePairs.tail }
  move Cursor.take
  if (← peek) == '\t' then
    let spacing ← skipToLineEnd true
    let c ← peek
    if !spacing.spaces && (c == '-' || isHandle c) then fail .valueSpacing
  if candidate.possible then
    -- The key was read before anyone knew, so its tokens go in front of it now.
    emitBefore candidate.number candidate.mark .key
    if bare then
      if candidate.mark.line < start.line then failAt start .valueContext
      emitBefore candidate.number (← mark) .flowMappingStart
    openBlock candidate.mark.column (some candidate.number) .blockMappingStart start
    indentOne
    modify fun s => { s with
      candidates := match s.candidates with
        | top :: outer => top.expired :: outer
        | [] => [] }
    disallowKey
  else
    -- The key is empty, or it stood behind a key indicator.
    if bare then emit (← mark) .flowMappingStart
    if ← inFlow then disallowKey
    else
      unless (← get).keyAllowed do failAt start .valueContext
      openBlock start.column none .blockMappingStart start
      indentOne
      allowKey
  emit start .value

/-- Reads a node property or an alias, which may begin a key. -/
def property (read : Lex Token) : Lex Unit := do
  saveCandidate
  disallowKey
  let token ← read
  emit token.mark token.kind

def blockScalarToken (literal : Bool) : Lex Unit := do
  saveCandidate
  allowKey
  let token ← blockScalar literal
  emit token.mark token.kind

def quotedScalarToken (single : Bool) : Lex Unit := do
  saveCandidate
  disallowKey
  let token ← quotedScalar single
  -- The colon of a quoted key may stand right behind it.
  skipToToken
  modify fun s => { s with adjacentValueAt := s.cursor.mark.index }
  emit token.mark token.kind

def plainScalarToken : Lex Unit := property plainScalar

/-- A colon stands here that separates a key from its value. -/
def atValue (s : Lexer) : Bool :=
  let next := s.cursor.peekAt 1
  isGap next ||
    (s.flowLevel > 0 && (isFlow next || s.cursor.mark.index == s.adjacentValueAt))

/-- Reads the token group that begins with the character here. -/
def contentToken : Lex Unit := do
  let s ← get
  if s.cursor.column < s.indent then fail .indentation
  let gap := isGap (s.cursor.peekAt 1)
  let block := s.flowLevel == 0
  match s.cursor.peek with
  | '[' => flowStart .flowSequenceStart
  | '{' => flowStart .flowMappingStart
  | ']' => flowEnd .flowSequenceEnd
  | '}' => flowEnd .flowMappingEnd
  | ',' => flowEntry
  | '-' => if gap then blockEntry else plainScalarToken
  | '?' => if gap then explicitKey else plainScalarToken
  | ':' => if atValue s then value else plainScalarToken
  | '*' => property (anchorToken true)
  | '&' => property (anchorToken false)
  | '!' => property tagToken
  | '|' => if block then blockScalarToken true else plainScalarToken
  | '>' => if block then blockScalarToken false else plainScalarToken
  | '\'' => quotedScalarToken true
  | '"' => quotedScalarToken false
  | c =>
    if c == '%' || c == '@' || c == '\x60' then fail (.unexpectedCharacter c)
    else plainScalarToken

/-- Reads the next token group. -/
def nextGroup : Lex Unit := do
  skipToToken
  expireCandidates
  unindent (← cursor).column
  let c ← cursor
  if isEnd c.peek then streamEnd
  else if c.column = 0 && c.peek == '%' then directive
  else if c.column = 0 && c.atDocumentStart then documentMarker .documentStart
  else if c.column = 0 && c.atDocumentEnd then
    documentMarker .documentEnd
    let _ ← skipToLineEnd true
    unless isBreakOrEnd (← peek) do fail .contentAfterDocumentEnd
  else contentToken

/-- Reads a token group and settles what can be settled. -/
def step : Lex Unit := do
  nextGroup
  expireCandidates
  settle

end Lex

namespace TokenStream

/-- Reads groups until the text ends or is malformed. Every group takes a character. -/
def read (s : Lexer) : Nat → TokenStream
  | 0 => ⟨s.settled.toList, some ⟨s.cursor.mark, .tokenEnd⟩⟩
  | turns + 1 =>
    if s.ended then ⟨s.settled.toList, none⟩
    else match Lex.step.run s with
      | .ok (_, next) => read next turns
      | .error fault => ⟨s.settled.toList, some fault⟩

def ofString (text : String) : TokenStream :=
  let cursor := Cursor.ofString text
  let size := cursor.rest.length + 2
  read { cursor, turns := ⟨size⟩ } size

end TokenStream

end DocRefs.Yaml
