import DocRefs.Text.Split

/-!
# File paths

A path is worked on as text only; no file is looked at. Its components are what stands between
slashes, without empty ones and single dots. Folding lets each double dot take back the component
before it, and stops at the root. Relative paths are relative to the root.
-/
namespace DocRefs.Location.Path

/-- Splits at every slash. -/
def split (path : List Char) : List (List Char) := Text.split (· = '/') path

def parentMark : List Char := ['.', '.']

/-- The piece names nothing: it is empty or a single dot. -/
def isVoid (piece : List Char) : Bool := piece = [] || piece = ['.']

def components (path : List Char) : List (List Char) :=
  (split path).filter fun piece => !isVoid piece

/-- One component further; the components so far are held with the last one first. -/
def step (folded : List (List Char)) (component : List Char) : List (List Char) :=
  if component = parentMark then folded.tail else component :: folded

/-- The components that remain when double dots are taken back. -/
def fold (parts : List (List Char)) : List (List Char) := (parts.foldl step []).reverse

/-- The absolute path with the given components. -/
def ofComponents : List (List Char) → List Char
  | [] => ['/']
  | parts => parts.flatMap fun part => '/' :: part

def isAbsolute (path : List Char) : Bool := path.head? = some '/'

/-- The normal form of a path. -/
def normalize (path : List Char) : List Char := ofComponents (fold (components path))

/-- The normal form of a path that is relative to the directory of another. -/
def resolve (current path : List Char) : List Char :=
  ofComponents (fold ((components current).dropLast ++ components path))

/-- A folded path holds no double dot. -/
theorem parentMark_not_mem_fold (parts : List (List Char)) : parentMark ∉ fold parts := by
  suffices general : ∀ folded, parentMark ∉ folded → parentMark ∉ parts.foldl step folded by
    simpa [fold] using general [] (by simp)
  induction parts with
  | nil => exact fun folded absent => absent
  | cons part rest ih =>
    intro folded absent
    refine ih _ ?_
    unfold step
    split
    · exact fun member => absent (List.mem_of_mem_tail member)
    · rename_i other
      simp only [List.mem_cons, not_or]
      exact ⟨fun same => other same.symm, absent⟩

/-! ## Ancestors -/

/-- Drops what names nothing from the end of the pieces; the first piece stays. -/
def trimEnd (pieces : List (List Char)) : List (List Char) :=
  match pieces with
  | [] => []
  | first :: rest => first :: (rest.reverse.dropWhile isVoid).reverse

/-- Puts slashes between pieces again; the empty first piece alone is the root. -/
def join (pieces : List (List Char)) : List Char :=
  match pieces with
  | [[]] => ['/']
  | pieces => ['/'].intercalate pieces

/-- The path without its last component, as it is written; nothing is above the root. -/
def parent? (path : List Char) : Option (List Char) :=
  match trimEnd (split path) with
  | [[]] | [] => none
  | pieces => some (join (trimEnd pieces.dropLast))

/-- A path and the paths above it, at most `count` of them. -/
def ancestors : Nat → List Char → List (List Char)
  | 0, _ => []
  | count + 1, path =>
    path :: match parent? path with
      | some above => ancestors count above
      | none => []

theorem length_ancestors_le (count : Nat) (path : List Char) :
    (ancestors count path).length ≤ count := by
  induction count generalizing path with
  | zero => simp [ancestors]
  | succ count ih =>
    unfold ancestors
    split
    · exact Nat.succ_le_succ (ih _)
    · simp

end DocRefs.Location.Path
