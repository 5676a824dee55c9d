import DocRefs.Location.Path
import DocRefs.Location.Url.Parse

/-!
# Pointers

A pointer names a document and, behind the first hash sign, a fragment in it. Documents are located
by URL or by file path; either has one normal form. Making a pointer absolute only ever touches the
document part.
-/
namespace DocRefs.Location

/-- The document part and the fragment, without the hash sign between them. -/
def splitPointer (pointer : String) : String × String :=
  let text := pointer.toList
  (String.ofList (text.takeWhile (· ≠ '#')), String.ofList ((text.dropWhile (· ≠ '#')).drop 1))

/-- The text has a hash sign. -/
def hasFragment (pointer : String) : Bool := pointer.toList.contains '#'

/-- The location as a URL. A scheme of one letter is the name of a drive and makes no URL. -/
def url? (location : String) : Option Url :=
  (Url.parse? location).filter fun url => url.scheme.length > 1

def isUrl (location : String) : Bool := (url? location).isSome

def normalizePath (path : String) : String := String.ofList (Path.normalize path.toList)

/-- The normal form of a location: a URL written anew, or an absolute path. -/
def normalize (location : String) : String :=
  match url? location with
  | some url => url.text
  | none => normalizePath location

/-- Joins a reference to a URL; what cannot be joined stays as it is. -/
def joinUrl (base : Url) (document : String) : String :=
  match Url.join? base document with
  | some url => url.text
  | none => document

/-- A relative document beside the current one. -/
def resolveBeside (current document : String) : String :=
  match url? current with
  | some url => joinUrl url document
  | none => String.ofList (Path.resolve current.toList document.toList)

/-- The document that a pointer names when it is read in the document `current`, or in none but with
a base URL. A pointer to the current document has no document part. -/
def absoluteDocument? (document : String) (current : Option String) (base : Option Url) :
    Option String :=
  if document.isEmpty then current
  else if isUrl document || Path.isAbsolute document.toList then some (normalize document)
  else match current, base with
    | some current, _ => some (resolveBeside current document)
    | none, some base => some (joinUrl base.asDirectory document)
    | none, none => some (normalize document)

/-- The pointer with its document part made absolute. Without a current document, a pointer that
names none stays as it is. -/
def absolutePointer (pointer : String) (current : Option String) (base : Option Url) : String :=
  let (document, fragment) := splitPointer pointer
  match absoluteDocument? document current base with
  | some document => if hasFragment pointer then document ++ "#" ++ fragment else document
  | none => pointer

theorem splitPointer_append (pointer : String) :
    (splitPointer pointer).1.toList ++ pointer.toList.dropWhile (· ≠ '#') = pointer.toList := by
  simp [splitPointer]

end DocRefs.Location
