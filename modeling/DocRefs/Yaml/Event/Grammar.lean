import DocRefs.Turns
import DocRefs.Yaml.Event
import DocRefs.Yaml.Token.Stream

/-!
# The events of the first document

The grammar is a stack machine: the stack holds what must still come, and each step looks at one
token, reports at most one event and replaces the top of the stack. A token leads to a bounded
number of steps, so a multiple of the number of tokens bounds the run. Only the first document is
read, and one token behind it, so a fault further on goes unnoticed.
-/
namespace DocRefs.Yaml

/-- What must come next. -/
inductive Expected where
  | node (block indentless : Bool)
  | blockKey
  | blockValue
  | blockItem
  | indentlessItem
  | flowItem (first : Bool)
  | pairKey
  | pairValue
  | pairEnd
  | flowKey (first : Bool)
  | flowValue
  | flowNoValue
  deriving DecidableEq, Repr

structure Grammar where
  tokens : List Token
  fault : Option Malformed
  expected : List Expected := []
  events : Array Event := #[]
  anchors : List (String × Nat) := []
  anchorCount : Nat := 0
  tags : List (String × String) := []

abbrev Parse := StateT Grammar (Except Malformed)

/-- The handle that `!!` stands for unless a directive says otherwise. -/
def coreSchema : String := "tag:yaml.org,2002:"

namespace Parse

def failAt {α : Type} (mark : Mark) (fault : Fault) : Parse α :=
  throw ⟨mark, fault⟩

/-- The next token. Behind the last settled token lies the fault of the text. -/
def peek : Parse Token := do
  let g ← get
  match g.tokens with
  | token :: _ => return token
  | [] => throw (g.fault.getD ⟨{}, .tokenEnd⟩)

def skip : Parse Unit := modify fun g => { g with tokens := g.tokens.tail }

def report (mark : Mark) (kind : EventKind) : Parse Unit :=
  modify fun g => { g with events := g.events.push ⟨mark, kind⟩ }

/-- Puts `next` on the stack, the first of it on top. -/
def expect (next : List Expected) : Parse Unit :=
  modify fun g => { g with expected := next ++ g.expected }

/-- Reports a node without content. -/
def reportEmpty (mark : Mark) : Parse Unit :=
  report mark (.scalar "" .plain 0 none)

def registerAnchor (name : String) : Parse Nat := do
  let number := (← get).anchorCount + 1
  modify fun g => { g with anchorCount := number, anchors := (name, number) :: g.anchors }
  return number

/-- Expands the handle of a tag. A named handle must have been declared. -/
def expandTag (mark : Mark) (handle suffix : String) : Parse Tag := do
  let declared := List.lookup handle (← get).tags
  if handle = "!!" then
    return ⟨declared.getD coreSchema, suffix⟩
  match declared with
  | some expansion => return ⟨expansion, suffix⟩
  | none =>
    -- The handles `!` and that of a verbatim tag need no declaration.
    if handle.length ≥ 2 then failAt mark .undeclaredHandle
    return ⟨handle, suffix⟩

/-- Takes the anchor and the tag in front of a node, in either order. -/
def takeProperties : Parse (Nat × Option Tag) := do
  let first ← peek
  match first.kind with
  | .anchor name =>
    skip
    let anchor ← registerAnchor name
    match (← peek).kind with
    | .tag handle suffix =>
      skip
      return (anchor, some (← expandTag first.mark handle suffix))
    | _ => return (anchor, none)
  | .tag handle suffix =>
    skip
    let tag ← expandTag first.mark handle suffix
    match (← peek).kind with
    | .anchor name =>
      skip
      return (← registerAnchor name, some tag)
    | _ => return (0, some tag)
  | _ => return (0, none)

/-- A node: an alias, or properties followed by content. Properties alone are an empty node. -/
def node (block indentless : Bool) : Parse Unit := do
  let token ← peek
  if let .aliasTo name := token.kind then
    skip
    match (← get).anchors.lookup name with
    | some number => report token.mark (.aliasTo number)
    | none => failAt token.mark .unknownAnchor
    return
  let (anchor, tag) ← takeProperties
  -- The node begins with its content, not with its properties.
  let token ← peek
  match token.kind with
  | .scalar style text =>
    skip
    report token.mark (.scalar text style anchor tag)
  | .flowSequenceStart =>
    skip
    report token.mark (.sequenceStart anchor tag)
    expect [.flowItem true]
  | .flowMappingStart =>
    skip
    report token.mark (.mappingStart anchor tag)
    expect [.flowKey true]
  | kind =>
    -- The entry itself is left standing: it belongs to the first item.
    if kind = .blockEntry && indentless then
      report token.mark (.sequenceStart anchor tag)
      expect [.indentlessItem]
    else if kind = .blockSequenceStart && block then
      skip
      report token.mark (.sequenceStart anchor tag)
      expect [.blockItem]
    else if kind = .blockMappingStart && block then
      skip
      report token.mark (.mappingStart anchor tag)
      expect [.blockKey]
    else if anchor > 0 || tag.isSome then
      report token.mark (.scalar "" .plain anchor tag)
    else failAt token.mark .nodeContent

/-- Reads a node, or reports an empty one if a token of `ends` stands here. -/
def nodeUnless (ends : List TokenKind) (block indentless : Bool) : Parse Unit := do
  let token ← peek
  if ends.contains token.kind then reportEmpty token.mark
  else expect [.node block indentless]

def blockKey : Parse Unit := do
  let token ← peek
  match token.kind with
  | .key =>
    skip
    expect [.blockValue]
    nodeUnless [.key, .value, .blockEnd] true true
  | .value =>
    expect [.blockValue]
    reportEmpty token.mark
  | .blockEnd =>
    skip
    report token.mark .mappingEnd
  | _ => failAt token.mark .blockKey

def blockValue : Parse Unit := do
  let token ← peek
  expect [.blockKey]
  if token.kind = .value then
    skip
    nodeUnless [.key, .value, .blockEnd] true true
  else reportEmpty token.mark

def blockItem : Parse Unit := do
  let token ← peek
  match token.kind with
  | .blockEnd =>
    skip
    report token.mark .sequenceEnd
  | .blockEntry =>
    skip
    expect [.blockItem]
    nodeUnless [.blockEntry, .blockEnd] true false
  | _ => failAt token.mark .blockItem

/-- An entry of a sequence that is not indented against its key. -/
def indentlessItem : Parse Unit := do
  let token ← peek
  if token.kind = .blockEntry then
    skip
    expect [.indentlessItem]
    nodeUnless [.blockEntry, .key, .value, .blockEnd] true false
  else report token.mark .sequenceEnd

def flowItem (first : Bool) : Parse Unit := do
  let token ← peek
  unless first || token.kind = .flowSequenceEnd do
    unless token.kind = .flowEntry do failAt token.mark .flowItem
    skip
  let token ← peek
  match token.kind with
  | .flowSequenceEnd =>
    skip
    report token.mark .sequenceEnd
  | .key =>
    skip
    report token.mark (.mappingStart 0 none)
    expect [.pairKey]
  | _ => expect [.node false false, .flowItem false]

/-- The key of a single pair. The token that ends an empty key goes with it. -/
def pairKey : Parse Unit := do
  let token ← peek
  expect [.pairValue]
  -- Taking the token here is what lets a pair like `[ ? , a ]` swallow the comma behind it.
  if [TokenKind.value, .flowEntry, .flowSequenceEnd].contains token.kind then
    skip
    reportEmpty token.mark
  else expect [.node false false]

def pairValue : Parse Unit := do
  let token ← peek
  expect [.pairEnd]
  if token.kind = .value then
    skip
    nodeUnless [.flowEntry, .flowSequenceEnd] false false
  else reportEmpty token.mark

def pairEnd : Parse Unit := do
  report (← peek).mark .mappingEnd
  expect [.flowItem false]

def flowKey (first : Bool) : Parse Unit := do
  let token ← peek
  unless first || token.kind = .flowMappingEnd do
    unless token.kind = .flowEntry do failAt token.mark .flowKey
    skip
  let token ← peek
  match token.kind with
  | .flowMappingEnd =>
    skip
    report token.mark .mappingEnd
  | .key =>
    skip
    expect [.flowValue]
    nodeUnless [.value, .flowEntry, .flowMappingEnd] false false
  | .value =>
    expect [.flowValue]
    reportEmpty token.mark
  | _ => expect [.node false false, .flowNoValue]

def flowValue : Parse Unit := do
  let token ← peek
  expect [.flowKey false]
  if token.kind = .value then
    skip
    let next ← peek
    if next.kind = .flowEntry || next.kind = .flowMappingEnd then reportEmpty token.mark
    else expect [.node false false]
  else reportEmpty token.mark

def flowNoValue : Parse Unit := do
  reportEmpty (← peek).mark
  expect [.flowKey false]

def step : Expected → Parse Unit
  | .node block indentless => node block indentless
  | .blockKey => blockKey
  | .blockValue => blockValue
  | .blockItem => blockItem
  | .indentlessItem => indentlessItem
  | .flowItem first => flowItem first
  | .pairKey => pairKey
  | .pairValue => pairValue
  | .pairEnd => pairEnd
  | .flowKey first => flowKey first
  | .flowValue => flowValue
  | .flowNoValue => flowNoValue

/-! ## Documents -/

/-- Takes the directives in front of a document. Each tag directive replaces the one before it. -/
def takeDirectives : Parse Unit := do
  let mut versioned := false
  for _ in Turns.mk (← get).tokens.length do
    let token ← peek
    match token.kind with
    | .versionDirective _ _ =>
      if versioned then failAt token.mark .repeatedDirective
      versioned := true
      -- A version puts the handles of tags back.
      modify fun g => { g with tags := [] }
    | .tagDirective handle expansion =>
      modify fun g => { g with tags := [(handle, expansion)] }
    | _ => break
    skip

/-- Directives and document markers. -/
def isBetweenDocuments : TokenKind → Bool
  | .versionDirective _ _ | .tagDirective _ _ => true
  | .documentStart | .documentEnd | .streamEnd => true
  | _ => false

/-- Takes what stands in front of the first document and says what to expect, or `false` if there
is no document. -/
def documentStart : Parse Bool := do
  modify fun g => { g with tokens := g.tokens.dropWhile (·.kind = .documentEnd) }
  let token ← peek
  if token.kind = .streamEnd then return false
  if isBetweenDocuments token.kind then
    takeDirectives
    let start ← peek
    unless start.kind = .documentStart do failAt start.mark .documentStart
    skip
    -- An explicit document may be empty.
    let next ← peek
    if isBetweenDocuments next.kind then reportEmpty next.mark
    else expect [.node true false]
  else expect [.node true false]
  return true

/-- Checks what stands behind the document. -/
def documentEnd : Parse Unit := do
  let token ← peek
  match token.kind with
  | .versionDirective _ _ | .tagDirective _ _ => failAt token.mark .directiveBeforeEnd
  | _ => pure ()

/-- Steps until nothing is expected any more. -/
def run : Nat → Parse Unit
  | 0 => do failAt (← peek).mark .tokenEnd
  | turns + 1 => do
    match (← get).expected with
    | [] => pure ()
    | top :: rest =>
      modify fun g => { g with expected := rest }
      step top
      run turns

/-- The events of the first document, if there is one. -/
def document : Parse (Option (List Event)) := do
  unless ← documentStart do return none
  run (8 * (← get).tokens.length + 8)
  documentEnd
  return some (← get).events.toList

end Parse

/-- The events of the first document of a text: none if the text holds no document. -/
def events (text : String) : Except Malformed (Option (List Event)) :=
  let stream := TokenStream.ofString text
  Parse.document.run' { tokens := stream.settled, fault := stream.fault }

end DocRefs.Yaml
