import DocRefs.Yaml.Fault

/-!
# Tokens

A token stream makes the structure of a text explicit: indentation becomes start and end tokens,
and a key is announced by a token in front of it. `TokenStream` holds the tokens that could be
settled and, if the text is malformed, what stopped the rest: a reader that never asks for more
tokens than were settled does not notice the fault.
-/
namespace DocRefs.Yaml

inductive ScalarStyle where
  | plain
  | singleQuoted
  | doubleQuoted
  | literal
  | folded
  deriving DecidableEq, Repr, Inhabited

inductive TokenKind where
  | streamEnd
  | versionDirective (major minor : Nat)
  | tagDirective (handle expansion : String)
  | documentStart
  | documentEnd
  | blockSequenceStart
  | blockMappingStart
  | blockEnd
  | flowSequenceStart
  | flowSequenceEnd
  | flowMappingStart
  | flowMappingEnd
  | blockEntry
  | flowEntry
  | key
  | value
  | aliasTo (name : String)
  | anchor (name : String)
  | tag (handle suffix : String)
  | scalar (style : ScalarStyle) (text : String)
  deriving DecidableEq, Repr, Inhabited

namespace TokenKind

/-- An anchor or a tag, which belong to the node that follows. -/
def isProperty : TokenKind → Bool
  | anchor _ => true
  | tag _ _ => true
  | _ => false

end TokenKind

structure Token where
  mark : Mark
  kind : TokenKind
  deriving DecidableEq, Repr, Inhabited

structure TokenStream where
  settled : List Token
  fault : Option Malformed
  deriving Repr

end DocRefs.Yaml
