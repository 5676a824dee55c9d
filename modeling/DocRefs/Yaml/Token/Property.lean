import DocRefs.Text.Hex
import DocRefs.Yaml.Token.Lexer

/-!
# Anchors, tags and directives

A tag is a handle and a suffix: `!!x` has the handle `!!`, `!e!x` the handle `!e!`, `!x` the handle
`!`; a verbatim tag has none. Bytes may be escaped by `%` and two digits; the bytes of one
character are read as one big-endian number.
-/
namespace DocRefs.Yaml.Lex

/-- How many bytes a character takes whose first byte is given. -/
def leadWidth? (byte : Nat) : Option Nat :=
  if byte < 0x80 then some 1
  else if 0xC0 ≤ byte ∧ byte < 0xE0 then some 2
  else if 0xE0 ≤ byte ∧ byte < 0xF0 then some 3
  else if 0xF0 ≤ byte ∧ byte < 0xF8 then some 4
  else none

/-- Takes one escaped byte. -/
def takeEscapedByte (start : Mark) : Lex Nat := do
  let c ← cursor
  match c.peek == '%', Text.hexDigit? (c.peekAt 1), Text.hexDigit? (c.peekAt 2) with
  | true, some high, some low =>
    move (·.takeMany 3)
    return high * 16 + low
  | _, _, _ => failAt start .tagEscape

/-- Takes the escaped bytes of one character. -/
def takeEscapedChar (start : Mark) : Lex Char := do
  let mut code ← takeEscapedByte start
  match leadWidth? code with
  | none => failAt start .tagEscape
  | some width =>
    for _ in List.range (width - 1) do
      let byte ← takeEscapedByte start
      unless 0x80 ≤ byte ∧ byte < 0xC0 do failAt start .tagEscape
      code := code * 256 + byte
    if code.isValidChar then return Char.ofNat code
    failAt start .tagEscape

/-- Takes the characters of a class of URI characters, with escapes decoded. -/
def takeUri (p : Char → Bool) (start : Mark) : Lex (List Char) := do
  let mut text : List Char := []
  for _ in (← get).turns do
    let c ← peek
    unless p c do break
    if c == '%' then text := (← takeEscapedChar start) :: text
    else
      text := c :: text
      move Cursor.take
  return text.reverse

/-- Takes a tag handle. In a directive it must be closed by a second `!`, unless it is the first
one alone. -/
def takeTagHandle (directive : Bool) (start : Mark) : Lex (List Char) := do
  unless (← peek) == '!' do failAt start .tagHandle
  move Cursor.take
  let name ← takeRun isHandle
  if (← peek) == '!' then
    move Cursor.take
    return '!' :: name ++ ['!']
  if directive && !name.isEmpty then failAt start .tagHandle
  return '!' :: name

/-- Takes the prefix that a tag directive gives to a handle. -/
def takeTagExpansion (start : Mark) : Lex (List Char) := do
  let c ← peek
  if c == '!' then
    move Cursor.take
    return c :: (← takeUri isUri start)
  unless isTag c do failAt start .tagDirective
  takeUri isUri start

def tagToken : Lex Token := do
  let start ← mark
  let (handle, suffix) ←
    if (← cursor).peekAt 1 == '<' then do
      -- The whole tag stands in angle brackets.
      move (·.takeMany 2)
      let uri ← takeUri isUri start
      unless (← peek) == '>' do failAt start .verbatimTag
      move Cursor.take
      pure ([], uri)
    else do
      let handle ← takeTagHandle false start
      if handle.length ≥ 2 && handle.getLast? == some '!' then
        let suffix ← takeUri isTag start
        if suffix.isEmpty then failAt start .tagSuffix
        pure (handle, suffix)
      else
        -- What looked like a named handle is the beginning of the suffix.
        let suffix := handle.tail ++ (← takeUri isTag start)
        pure (if suffix.isEmpty then ([], ['!']) else (['!'], suffix))
  let c ← peek
  unless isGap c || ((← inFlow) && isFlow c) do failAt start .tagSuffix
  return ⟨start, .tag (String.ofList handle) (String.ofList suffix)⟩

/-- An alias, or an anchor. -/
def anchorToken (isAlias : Bool) : Lex Token := do
  let start ← mark
  move Cursor.take
  let name ← takeRun isAnchor
  if name.isEmpty then failAt start .anchorName
  let name := String.ofList name
  return ⟨start, if isAlias then .aliasTo name else .anchor name⟩

/-! ## Directives -/

/-- Takes one number of a version; nine digits are the most that are read. -/
def takeVersionNumber (start : Mark) : Lex Nat := do
  let digits ← takeRun (·.isDigit)
  if digits.isEmpty || digits.length > 9 then failAt start .directiveVersion
  return digits.foldl (fun value digit => value * 10 + (digit.toNat - '0'.toNat)) 0

def versionDirective (start : Mark) : Lex TokenKind := do
  move Cursor.skipBlanks
  let major ← takeVersionNumber start
  unless (← peek) == '.' do failAt start .directiveVersion
  move Cursor.take
  return .versionDirective major (← takeVersionNumber start)

def tagDirective (start : Mark) : Lex TokenKind := do
  move Cursor.skipBlanks
  let handle ← takeTagHandle true start
  move Cursor.skipBlanks
  let expansion ← takeTagExpansion start
  unless isGap (← peek) do failAt start .tagDirective
  return .tagDirective (String.ofList handle) (String.ofList expansion)

/-- A directive with its line. One of an unknown name is read as a tag directive without effect. -/
def directiveToken : Lex Token := do
  let start ← mark
  move Cursor.take
  let name ← takeRun isHandle
  if name.isEmpty || !isGap (← peek) then failAt start .directiveName
  let kind ←
    if name = "YAML".toList then versionDirective start
    else if name = "TAG".toList then tagDirective start
    else do
      move Cursor.skipLine
      pure (.tagDirective "" "")
  let _ ← skipToLineEnd true
  unless isBreakOrEnd (← peek) do failAt start .directiveTail
  move Cursor.takeBreak
  return ⟨start, kind⟩

end DocRefs.Yaml.Lex
