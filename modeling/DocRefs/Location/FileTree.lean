import DocRefs.Error
import DocRefs.Location.Path

/-!
# Files

A tree of files as a list of them. A directory exists if it is listed or if something lies below it.
Reading walks a path piece by piece, so a path that leads through a file or past nothing fails where
it does so.
-/
namespace DocRefs

inductive FileEntry where
  | file (text : String)
  /-- A file that holds no text. -/
  | binary
  | directory
  deriving DecidableEq, Repr

/-- Entries under the components of their paths. -/
structure FileTree where
  entries : List (List (List Char) × FileEntry) := []
  deriving Repr, Inhabited

namespace FileTree

open Location

/-- The tree with one more entry; an earlier entry at the same path is replaced. -/
def add (t : FileTree) (path : String) (entry : FileEntry) : FileTree :=
  ⟨(Path.fold (Path.components path.toList), entry) :: t.entries⟩

/-- What there is at a path. -/
def entryAt? (t : FileTree) (path : List (List Char)) : Option FileEntry :=
  match t.entries.lookup path with
  | some entry => some entry
  | none =>
    if path.isEmpty || t.entries.any (fun (below, _) => path.isPrefixOf below) then some .directory
    else none

/-- One piece further down a path; only directories can be passed. -/
def enter (t : FileTree) (path : List (List Char)) (piece : List Char) :
    Except FileFault (List (List Char)) :=
  match t.entryAt? path with
  | none => .error .missing
  | some (.file _) | some .binary => .error .notDirectory
  | some .directory =>
    -- The directory has to be there even if the piece does not go further down.
    if Path.isVoid piece then .ok path
    else if piece = Path.parentMark then .ok path.dropLast
    else .ok (path ++ [piece])

/-- The text of the file at a path. -/
def read (t : FileTree) (path : String) : Except FileFault String := do
  if path.isEmpty then throw .missing
  let place ← (Path.split path.toList).foldlM t.enter []
  match t.entryAt? place with
  | some (.file text) => return text
  | some .binary => throw .notText
  | some .directory => throw .isDirectory
  | none => throw .missing

end FileTree

end DocRefs
