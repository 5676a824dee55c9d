import DocRefs.Proofs.Location.Settled

/-!
# Detours in paths

A detour leads nowhere: a slash more, a single dot, or a name that is taken back at once. Folding
goes through the components of a path with those of the directory it has come to, and a detour
leaves that directory as it was; double dots leave it for the ones above, and the root for itself.
So the normal form of an absolute path does not depend on its detours. Main result:
`normalize_folds`.
-/
namespace DocRefs.Location

namespace Path

/-! ### Components of joined paths -/

/-- The rest of a path begins with a slash, or there is none. -/
def AtSlash (rest : List Char) : Prop := rest = [] ∨ rest.head? = some '/'

theorem components_append_slash (front rest : List Char) :
    components (front ++ '/' :: rest) = components front ++ components rest := by
  rw [components, split, Text.split_append_cons rfl, List.filter_append]
  rfl

theorem components_append (front : List Char) {rest : List Char} (atSlash : AtSlash rest) :
    components (front ++ rest) = components front ++ components rest := by
  rcases atSlash with rfl | head
  · simp [components, split, Text.split, isVoid]
  · obtain ⟨later, rfl⟩ := List.head?_eq_some_iff.mp head
    have own : components ('/' :: later) = components later := components_append_slash [] later
    rw [components_append_slash, own]

/-- A path stays absolute when something is put in at a slash. -/
theorem head?_append_append {front middle rest : List Char} (atSlash : AtSlash middle)
    (slash : (front ++ rest).head? = some '/') : (front ++ middle ++ rest).head? = some '/' := by
  cases front with
  | cons c front => exact slash
  | nil =>
    rcases atSlash with rfl | head
    · exact slash
    · obtain ⟨later, rfl⟩ := List.head?_eq_some_iff.mp head
      rfl

/-- The components that a path leads down to when it is followed from a directory. -/
theorem fold_append (parts later : List (List Char)) :
    fold (parts ++ later) = (later.foldl step (fold parts).reverse).reverse := by
  rw [fold, fold, List.foldl_append, List.reverse_reverse]

/-! ### Detours -/

/-- A component that leads one directory down. -/
structure IsName (component : List Char) : Prop where
  solid : isVoid component = false
  down : component ≠ parentMark
  whole : '/' ∉ component

/-- Pieces of a path that lead back to where they begin. -/
inductive IsDetour : List Char → Prop
  | slash : IsDetour ['/']
  | dot : IsDetour ['/', '.']
  | back {name : List Char} (named : IsName name) : IsDetour ('/' :: name ++ '/' :: parentMark)

theorem IsName.components_eq {name : List Char} (named : IsName name) :
    components name = [name] := by
  have plain : ∀ c ∈ name, decide (c = '/') = false := fun c member => by
    simpa using ne_of_mem_of_not_mem member named.whole
  rw [components, split, Text.split_of_forall_not_mark plain]
  simp [named.solid]

theorem IsDetour.head?_eq {detour : List Char} (leadsBack : IsDetour detour) :
    detour.head? = some '/' := by
  cases leadsBack <;> rfl

theorem IsDetour.atSlash {detour : List Char} (leadsBack : IsDetour detour) : AtSlash detour :=
  .inr leadsBack.head?_eq

/-- Whatever directory a detour is followed from, it leads there again. -/
theorem IsDetour.foldl_step {detour : List Char} (leadsBack : IsDetour detour)
    (folded : List (List Char)) : (components detour).foldl step folded = folded := by
  cases leadsBack with
  | slash => rfl
  | dot => rfl
  | @back name named =>
    have parts : components ('/' :: name ++ '/' :: parentMark) = [name, parentMark] := by
      have own : components ('/' :: name) = components name := components_append_slash [] name
      rw [components_append_slash, own, named.components_eq]
      rfl
    -- The name goes onto what is folded, and the double dots take it off again.
    rw [parts, List.foldl_cons, step, if_neg named.down, List.foldl_cons, step, if_pos rfl]
    rfl

theorem normalize_detour (front : List Char) {detour rest : List Char}
    (leadsBack : IsDetour detour) (atSlash : AtSlash rest) :
    normalize (front ++ detour ++ rest) = normalize (front ++ rest) := by
  simp only [normalize, components_append _ atSlash, components_append _ leadsBack.atSlash,
    fold_append]
  rw [leadsBack.foldl_step, List.reverse_reverse]

/-! ### Double dots -/

/-- Double dots that lead up `count` times. -/
def ups (count : Nat) : List Char := (List.replicate count ('/' :: parentMark)).flatten

/-- How many directories below the root a path leads. -/
def depth (path : List Char) : Nat := (fold (components path)).length

theorem ups_succ (count : Nat) : ups (count + 1) = ('/' :: parentMark) ++ ups count := by
  rw [ups, List.replicate_succ, List.flatten_cons]
  rfl

theorem atSlash_ups (count : Nat) : AtSlash (ups count) := by
  cases count with
  | zero => exact .inl rfl
  | succ count => exact .inr (by rw [ups_succ]; rfl)

theorem components_ups (count : Nat) :
    components (ups count) = List.replicate count parentMark := by
  induction count with
  | zero => rfl
  | succ count ih => rw [ups_succ, components_append _ (atSlash_ups count), ih]; rfl

/-- Each double dot takes the last component back, until there is none. -/
theorem foldl_step_parentMark (count : Nat) (folded : List (List Char)) :
    (List.replicate count parentMark).foldl step folded = folded.drop count := by
  induction count generalizing folded with
  | zero => rfl
  | succ count ih =>
    rw [List.replicate_succ, List.foldl_cons, step, if_pos rfl, ih, ← List.drop_one,
      List.drop_drop, Nat.add_comm]

/-- Double dots lead up as far as there are directories to leave, and then stay at the root. -/
theorem fold_components_ups (path : List Char) (count : Nat) :
    fold (components (path ++ ups count)) =
      (fold (components path)).take (depth path - count) := by
  -- Components are folded with the last one first, so those taken back are at the front.
  rw [components_append _ (atSlash_ups count), components_ups, fold_append,
    foldl_step_parentMark, List.reverse_drop, List.reverse_reverse, List.length_reverse, depth]

theorem normalize_ups {path rest : List Char} {count : Nat} (above : depth path ≤ count)
    (atSlash : AtSlash rest) :
    normalize (path ++ ups count ++ rest) = normalize ('/' :: rest) := by
  have top : fold (components (path ++ ups count)) = [] := by
    rw [fold_components_ups, Nat.sub_eq_zero_of_le above, List.take_zero]
  have own : components ('/' :: rest) = components rest := components_append_slash [] rest
  rw [normalize, normalize, components_append _ atSlash, fold_append, top, own]
  rfl

end Path

/-! ### Locations -/

theorem normalize_ofList {path : List Char} (slash : path.head? = some '/') :
    normalize (String.ofList path) = String.ofList (Path.normalize path) := by
  have head : (String.ofList path).toList.head? = some '/' := by rwa [String.toList_ofList]
  rw [normalize, url?_eq_none head, normalizePath, String.toList_ofList]

/-- The normal form of an absolute path is an absolute path without empty components, single dots
and double dots, and such a path is its own normal form. A detour before a slash or at the end makes
no difference to it, and double dots lead no further up than to the root, however many there are. -/
theorem normalize_folds (location : String)
    (absolute : Path.isAbsolute location.toList = true) :
    Path.IsNormal (normalize location).toList ∧
      normalize (normalize location) = normalize location ∧
      (Path.IsNormal location.toList → normalize location = location) ∧
      ∀ front rest, location.toList = front ++ rest → Path.AtSlash rest →
        (∀ detour, Path.IsDetour detour →
          normalize (String.ofList (front ++ detour ++ rest)) = normalize location) ∧
        ∀ count, Path.depth front ≤ count →
          normalize (String.ofList (front ++ Path.ups count ++ rest)) =
            normalize (String.ofList ('/' :: rest)) := by
  have slash := Path.isAbsolute_iff.mp absolute
  -- A text that begins with a slash is no URL, so only its path is folded.
  have form : normalize location = String.ofList (Path.normalize location.toList) := by
    rw [← normalize_ofList slash, String.ofList_toList]
  refine ⟨?_, ?_, fun normal => ?_, fun front rest parts atSlash => ?_⟩
  · rw [form, String.toList_ofList]
    exact Path.isNormal_normalize _
  · rw [form]
    exact normalize_normalizePath location
  · rw [form, normal.normalize_eq, String.ofList_toList]
  · rw [parts] at slash
    refine ⟨fun detour leadsBack => ?_, fun count above => ?_⟩
    · rw [normalize_ofList (Path.head?_append_append leadsBack.atSlash slash), form, parts,
        Path.normalize_detour front leadsBack atSlash]
    · rw [normalize_ofList (Path.head?_append_append (Path.atSlash_ups count) slash),
        normalize_ofList rfl, Path.normalize_ups above atSlash]

/-- A path with dots, and in it a name that is taken back and more double dots than directories. -/
theorem normalize_folds_dotted :
    normalize "/a/./b/../c.yaml" = "/a/c.yaml" ∧
      Path.IsNormal "/a/c.yaml".toList ∧
      normalize "/a/./b/x/../../c.yaml" = "/a/c.yaml" ∧
      normalize "/a/./b/../../../../c.yaml" = "/c.yaml" := by
  have form : normalize "/a/./b/../c.yaml" = "/a/c.yaml" := by decide +kernel
  obtain ⟨normal, _, _, put_in⟩ := normalize_folds "/a/./b/../c.yaml" (by decide +kernel)
  obtain ⟨detours, ups⟩ :=
    put_in "/a/./b".toList "/../c.yaml".toList (by decide +kernel) (.inr (by decide +kernel))
  have named : Path.IsName ['x'] := ⟨by decide, by decide, by decide⟩
  have back := detours _ (.back named)
  have up := ups 3 (by decide +kernel)
  rw [form] at normal back
  refine ⟨form, normal, back, up.trans (by decide +kernel)⟩

end DocRefs.Location
