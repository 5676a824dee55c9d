import DocRefs.Node.OfEvents
import DocRefs.Number.Integer

/-!
# Errors

Every failure is a cause with the place it concerns; the wording is in `RefError.message` alone.
Extraction wraps the cause it met, and the questions about a cause look through the wrapping.
-/
namespace DocRefs

/-- Why a node does not convert to a field. -/
inductive FieldProblem where
  | expectedScalar (found : NodeKind)
  | notBoolean (text : String)
  | notInteger (text : String) (cause : IntegerError)
  | notNumber (text : String) (cause : FloatError)
  | other (message : String)
  deriving DecidableEq, Repr

def FieldProblem.message : FieldProblem → String
  | expectedScalar found => "expected a scalar, found a " ++ found.name
  | notBoolean text => "'" ++ text ++ "' is not a boolean"
  | notInteger text cause => "'" ++ text ++ "' is not an integer: " ++ cause.message
  | notNumber text cause => "'" ++ text ++ "' is not a number: " ++ cause.message
  | other message => message

/-- Why a configuration is refused. -/
inductive ConfigFault where
  | malformed (reason : String)
  | emptyExtensionPrefix
  | categoryPointer (name pointer : String)
  | other (message : String)
  deriving DecidableEq, Repr

/-- The name of a configuration file. -/
def configFileName : String := ".refchase.toml"

def ConfigFault.message : ConfigFault → String
  | malformed reason => "Failed to parse " ++ configFileName ++ ": " ++ reason
  | emptyExtensionPrefix => "extension_prefix must not be empty"
  | categoryPointer name pointer =>
    "lookup category '" ++ name ++ "' pointer must start with '/', got '" ++ pointer ++ "'"
  | other message => message

/-- Why a file cannot be read. -/
inductive FileFault where
  | missing
  | notDirectory
  | isDirectory
  | notText
  deriving DecidableEq, Repr

def FileFault.message : FileFault → String
  | missing => "No such file or directory (os error 2)"
  | notDirectory => "Not a directory (os error 20)"
  | isDirectory => "Is a directory (os error 21)"
  | notText => "stream did not contain valid UTF-8"

inductive RefError where
  /-- A reference whose pointer text is empty. -/
  | emptyReference (position : Position)
  /-- No lookup answers the pointer. -/
  | notFound (reference : String) (position : Position)
  /-- The target lies on a cycle, and cycles are not allowed. -/
  | circular (journey : String) (position : Position)
  /-- More hops than a chain of references may have. -/
  | depthExceeded
  /-- A label expected to hold a sequence holds something else. -/
  | notAnArray (position : Position)
  | inObject (cause : RefError)
  | inArray (cause : RefError)
  | inMap (cause : RefError)
  | field (name : String) (position : Position) (problem : FieldProblem)
  /-- What a build hook reports, word for word. -/
  | build (message : String)
  | parse (source : String) (fault : ParseFault)
  | configuration (fault : ConfigFault)
  | document (location message : String)
  | file (path : String) (fault : FileFault)
  deriving DecidableEq, Repr, Inhabited

/-- A place in words. -/
def Position.words (p : Position) : String := s!"line {p.line}, column {p.column}"

namespace RefError

def message : RefError → String
  | emptyReference position =>
    "reference at " ++ position.words ++ " is empty, it cannot be resolved"
  | notFound reference position =>
    "reference '" ++ reference ++ "' at " ++ position.words ++ " was not found"
  | circular journey position =>
    "circular reference '" ++ journey ++ "' found during lookup at " ++ position.words ++
      ", it cannot be resolved"
  | depthExceeded => "reference resolution depth exceeded, possible circular reference"
  | notAnArray position => "array build failed, input is not an array, " ++ position.words
  | inObject cause => "object extraction failed: " ++ cause.message
  | inArray cause => "array build failed: reference cannot be found: " ++ cause.message
  | inMap cause => "map build failed: reference cannot be found: " ++ cause.message
  | field name position problem =>
    "unable to populate field '" ++ name ++ "' at " ++ position.words ++ ": " ++ problem.message
  | build message => message
  | parse source fault => "Parse error in " ++ source ++ ": " ++ fault.message
  | configuration fault => "Configuration error: " ++ fault.message
  | document location message => "Document error for " ++ location ++ ": " ++ message
  | file path fault => "File system error for " ++ path ++ ": " ++ fault.message

/-- The cause inside the wrapping that extraction adds. -/
def unwrapped : RefError → RefError
  | inObject cause | inArray cause | inMap cause => cause.unwrapped
  | cause => cause

def isCircular (e : RefError) : Bool :=
  match e.unwrapped with
  | circular .. => true
  | _ => false

def isDepthExceeded (e : RefError) : Bool :=
  match e.unwrapped with
  | depthExceeded => true
  | _ => false

def isNotFound (e : RefError) : Bool :=
  match e.unwrapped with
  | notFound .. => true
  | _ => false

@[simp] theorem unwrapped_unwrapped (e : RefError) : e.unwrapped.unwrapped = e.unwrapped := by
  induction e <;> simp_all [unwrapped]

@[simp] theorem isCircular_inObject (e : RefError) : (inObject e).isCircular = e.isCircular := rfl
@[simp] theorem isCircular_inArray (e : RefError) : (inArray e).isCircular = e.isCircular := rfl
@[simp] theorem isCircular_inMap (e : RefError) : (inMap e).isCircular = e.isCircular := rfl

end RefError

/-- The name of a source without one. -/
def inlineSource : String := "<inline>"

/-- The document that a text of a named source holds. -/
def Node.parseNamed (source text : String) : Build (Except RefError Node) := do
  return (← Node.parse? text).mapError (.parse source)

def Node.parse (text : String) : Build (Except RefError Node) := Node.parseNamed inlineSource text

end DocRefs
