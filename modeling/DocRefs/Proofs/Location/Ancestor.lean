import DocRefs.Location.Path
import Mathlib.Data.List.DropRight

/-!
# Directories above a path

The path above another is written as that one without its last component, and is absolute if that
one is. So the paths above a path are those to its directories, the nearest first, up to the root or
to where a relative path begins (`getElem?_ancestors`, `lt_length_ancestors`).
-/
namespace DocRefs.Location.Path

/-! ### Pieces -/

theorem trimEnd_cons (first : List Char) (rest : List (List Char)) :
    trimEnd (first :: rest) = first :: rest.rdropWhile isVoid := rfl

theorem mem_of_mem_trimEnd {pieces : List (List Char)} {piece : List Char}
    (member : piece ∈ trimEnd pieces) : piece ∈ pieces := by
  cases pieces with
  | nil => exact member
  | cons first rest =>
    rw [trimEnd_cons] at member
    exact List.cons_subset_cons first (List.rdropWhile_prefix isVoid rest).subset member

/-- Only what names nothing goes. -/
theorem filter_rdropWhile (pieces : List (List Char)) :
    (pieces.rdropWhile isVoid).filter (fun piece => !isVoid piece) =
      pieces.filter fun piece => !isVoid piece := by
  induction pieces using List.reverseRecOn with
  | nil => rfl
  | append_singleton front last ih =>
    by_cases void : isVoid last = true
    · rw [List.rdropWhile_concat_pos _ _ _ void, ih, List.filter_append]
      simp [void]
    · rw [List.rdropWhile_concat_neg _ _ _ void]

theorem filter_trimEnd (pieces : List (List Char)) :
    (trimEnd pieces).filter (fun piece => !isVoid piece) =
      pieces.filter fun piece => !isVoid piece := by
  cases pieces with
  | nil => rfl
  | cons first rest => rw [trimEnd_cons, List.filter_cons, List.filter_cons, filter_rdropWhile]

/-- What is left when the end is trimmed ends with a component, or is one piece. -/
theorem filter_dropLast_trimEnd (pieces : List (List Char)) :
    ((trimEnd pieces).dropLast).filter (fun piece => !isVoid piece) =
      (pieces.filter fun piece => !isVoid piece).dropLast := by
  rw [← filter_trimEnd pieces]
  cases pieces with
  | nil => rfl
  | cons first rest =>
    rw [trimEnd_cons]
    by_cases none_left : rest.rdropWhile isVoid = []
    · rw [none_left, List.filter_cons]
      split <;> rfl
    · -- The last piece that is left is a component, so it is the one that goes on either side.
      have solid := List.rdropWhile_last_not isVoid rest none_left
      have ends := List.dropLast_append_getLast none_left
      generalize (rest.rdropWhile isVoid).getLast none_left = last at solid ends
      generalize (rest.rdropWhile isVoid).dropLast = front at ends
      have kept : [last].filter (fun piece => !isVoid piece) = [last] := by simp [solid]
      rw [← ends, ← List.cons_append, List.dropLast_concat, List.filter_append, kept,
        List.dropLast_concat]

theorem components_join {pieces : List (List Char)}
    (plain : ∀ piece ∈ pieces, ∀ c ∈ piece, decide (c = '/') = false) :
    components (join pieces) = pieces.filter fun piece => !isVoid piece := by
  unfold join
  split
  · rfl
  · cases pieces with
    | nil => rfl
    | cons first rest =>
      rw [components, split, Text.split_intercalate (by simp) (by simp) plain]

/-- A text begins with a slash where its first piece is empty and another one follows. -/
theorem isAbsolute_join (first : List Char) (rest : List (List Char))
    (plain : ∀ c ∈ first, decide (c = '/') = false) :
    isAbsolute (join (first :: rest)) = decide (first = []) := by
  cases first with
  | nil => cases rest <;> rfl
  | cons head tail =>
    have other : head ≠ '/' := by simpa using plain head List.mem_cons_self
    cases rest <;> simp [join, isAbsolute, List.intercalate, other]

/-! ### One path above -/

/-- What the pieces of a path with something above it are, when its end is trimmed. -/
theorem parent?_eq_some {path above : List Char} (up : parent? path = some above) :
    trimEnd (split path) ≠ [[]] ∧
      above = join (trimEnd (trimEnd (split path)).dropLast) := by
  unfold parent? at up
  split at up
  · cases up
  · cases up
  next other _ => exact ⟨other, (Option.some.inj up).symm⟩

theorem components_parent? {path above : List Char} (up : parent? path = some above) :
    components above = (components path).dropLast := by
  obtain ⟨-, rfl⟩ := parent?_eq_some up
  rw [components_join, filter_trimEnd, filter_dropLast_trimEnd, components]
  intro piece member
  exact Text.not_mark_of_mem_split
    (mem_of_mem_trimEnd (List.dropLast_subset _ (mem_of_mem_trimEnd member)))

theorem isAbsolute_parent? {path above : List Char} (up : parent? path = some above) :
    isAbsolute above = isAbsolute path := by
  obtain ⟨not_root, rfl⟩ := parent?_eq_some up
  have whole : ['/'].intercalate (split path) = path := Text.intercalate_split '/' path
  have plain : ∀ piece ∈ split path, ∀ c ∈ piece, decide (c = '/') = false :=
    fun _ member => Text.not_mark_of_mem_split member
  cases cut : split path with
  | nil => exact absurd cut (Text.split_ne_nil _ path)
  | cons first rest =>
    rw [cut, trimEnd_cons] at not_root
    rw [cut] at whole plain
    have begins := plain first List.mem_cons_self
    -- Only the empty path is not what its pieces are joined to, and nothing is above that one.
    have written : join (first :: rest) = path := by
      unfold join
      split
      · next alone => cases alone; exact absurd rfl not_root
      · exact whole
    rw [trimEnd_cons, ← written, isAbsolute_join first rest begins]
    cases kept : rest.rdropWhile isVoid with
    | nil =>
      -- A single component is relative, and what is above it is the empty path.
      rw [kept] at not_root
      have named : first ≠ [] := fun empty => not_root (by rw [empty])
      exact (decide_eq_false named).symm
    | cons next more =>
      rw [List.dropLast_cons_cons, trimEnd_cons, isAbsolute_join _ _ begins]

/-- Nothing is above a path without components that are written. -/
theorem components_eq_nil_of_parent? {path : List Char} (top : parent? path = none) :
    components path = [] := by
  rw [components, ← filter_trimEnd]
  unfold parent? at top
  split at top
  next root => rw [root]; rfl
  next gone => rw [gone]; rfl
  next => cases top

/-! ### All of them -/

/-- Each of the paths above a path names the directory that as many components less name. -/
theorem getElem?_ancestors {count : Nat} {path directory : List Char} {i : Nat}
    (found : (ancestors count path)[i]? = some directory) :
    isAbsolute directory = isAbsolute path ∧
      components directory = (components path).take ((components path).length - i) := by
  induction count generalizing path i with
  | zero => cases found
  | succ count ih =>
    unfold ancestors at found
    cases i with
    | zero =>
      cases found
      simp
    | succ i =>
      cases up : parent? path with
      | none => simp [up] at found
      | some above =>
        rw [up, List.getElem?_cons_succ] at found
        obtain ⟨begins, parts⟩ := ih found
        rw [components_parent? up] at parts
        refine ⟨begins.trans (isAbsolute_parent? up), ?_⟩
        rw [parts, List.length_dropLast, List.dropLast_eq_take, List.take_take]
        congr 1
        omega

/-- No component is passed over before the count is used up. -/
theorem lt_length_ancestors {count : Nat} {path : List Char} {i : Nat} (fewer : i < count)
    (within : i ≤ (components path).length) : i < (ancestors count path).length := by
  induction count generalizing path i with
  | zero => omega
  | succ count ih =>
    unfold ancestors
    cases i with
    | zero => simp
    | succ i =>
      cases up : parent? path with
      | none =>
        rw [components_eq_nil_of_parent? up] at within
        simp at within
      | some above =>
        have further := @ih above i (by omega) (by
          rw [components_parent? up, List.length_dropLast]
          omega)
        simpa using further

end DocRefs.Location.Path
