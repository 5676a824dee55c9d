import DocRefs.Yaml.Cursor

/-!
# What can be wrong with a YAML text

A fault names the rule that the text breaks; `Malformed` adds where. Reading stops at the first
fault that lies in or right behind the first document, so a text has at most one.
-/
namespace DocRefs.Yaml

inductive Fault where
  | missingColon
  | keyExpected
  | tabIndentation
  | commentSpacing
  | indentation
  | contentAfterDocumentEnd
  | unexpectedCharacter (c : Char)
  | directiveName
  | directiveVersion
  | directiveTail
  | tagDirective
  | tagHandle
  | tagSuffix
  | tagEscape
  | verbatimTag
  | undeclaredHandle
  | anchorName
  | unknownAnchor
  | flowDepth
  | blockEntry
  | blockEntrySpacing
  | anchorIndentation
  | indentationIndicator
  | blockHeaderTail
  | blockLeadingTab
  | blockLineIndentation
  | unterminatedQuote
  | markerInQuote
  | quoteTail
  | escape
  | escapeCode
  | flowDash
  | keyContext
  | valueContext
  | valueSpacing
  | documentStart
  | directiveBeforeEnd
  | repeatedDirective
  | nodeContent
  | blockKey
  | blockItem
  | flowItem
  | flowKey
  | tokenEnd
  deriving DecidableEq, Repr

namespace Fault

/-- The rule in words. -/
def message : Fault → String
  | missingColon => "a key that began this line has no ':'"
  | keyExpected => "a mapping key was expected"
  | tabIndentation => "a tab cannot indent"
  | commentSpacing => "a comment must be separated by white space"
  | indentation => "the line is indented too little"
  | contentAfterDocumentEnd => "content after a document end marker"
  | unexpectedCharacter c => s!"unexpected character '{c}'"
  | directiveName => "a directive has no proper name"
  | directiveVersion => "a version directive has no proper version"
  | directiveTail => "text after a directive"
  | tagDirective => "a tag directive is incomplete"
  | tagHandle => "a tag handle is malformed"
  | tagSuffix => "a tag is not followed by white space"
  | tagEscape => "an escaped byte in a tag is not valid"
  | verbatimTag => "a verbatim tag is not closed"
  | undeclaredHandle => "a tag handle was not declared"
  | anchorName => "an anchor or alias has no name"
  | unknownAnchor => "an alias has no anchor before it"
  | flowDepth => "flow collections are nested too deeply"
  | blockEntry => "a block sequence entry is not allowed here"
  | blockEntrySpacing => "'-' must be followed by a space"
  | anchorIndentation => "an anchor or tag is indented too little"
  | indentationIndicator => "an indentation indicator cannot be zero"
  | blockHeaderTail => "text after a block scalar header"
  | blockLeadingTab => "a block scalar cannot begin with a tab"
  | blockLineIndentation => "a block scalar line is indented too little"
  | unterminatedQuote => "a quoted scalar is not closed"
  | markerInQuote => "a document marker inside a quoted scalar"
  | quoteTail => "text after a quoted scalar"
  | escape => "an unknown escape"
  | escapeCode => "an escape code is not a character"
  | flowDash => "a plain scalar cannot begin with '-' before a flow indicator"
  | keyContext => "a mapping key is not allowed here"
  | valueContext => "a mapping value is not allowed here"
  | valueSpacing => "':' must be followed by a space"
  | documentStart => "a document start was expected"
  | directiveBeforeEnd => "a directive before the end of the document"
  | repeatedDirective => "a directive is repeated"
  | nodeContent => "a node has no content"
  | blockKey => "a block mapping key was expected"
  | blockItem => "a block sequence item was expected"
  | flowItem => "',' or ']' was expected"
  | flowKey => "',' or a closing brace was expected"
  | tokenEnd => "the text ends too early"

end Fault

/-- A broken rule and the place where it was noticed. -/
structure Malformed where
  mark : Mark
  fault : Fault
  deriving DecidableEq, Repr

def Malformed.message (m : Malformed) : String :=
  s!"{m.fault.message} at line {m.mark.line} column {m.mark.column + 1}"

end DocRefs.Yaml
