import DocRefs.Location.Path

/-!
# Folded paths

A list of components is clean if a path can be cut into them: none is void, and none holds a slash.
The components of a path are clean, folding keeps them so and takes out double dots, and a path that
is put together from clean components is cut into them again. So the normal form of a path is its
own normal form (`normalize_normalize`).
-/
namespace DocRefs.Location.Path

/-- A path can be cut into the components. -/
def Clean (parts : List (List Char)) : Prop := ∀ part ∈ parts, isVoid part = false ∧ '/' ∉ part

theorem clean_components (path : List Char) : Clean (components path) := by
  intro part member
  obtain ⟨piece, solid⟩ := List.mem_filter.mp member
  refine ⟨by simpa using solid, fun slash => ?_⟩
  have plain := Text.not_mark_of_mem_split piece _ slash
  simp at plain

theorem mem_of_mem_fold {parts : List (List Char)} {part : List Char} (member : part ∈ fold parts) :
    part ∈ parts := by
  suffices general : ∀ folded, part ∈ parts.foldl step folded → part ∈ folded ∨ part ∈ parts by
    simpa using general [] (List.mem_reverse.mp member)
  clear member
  induction parts with
  | nil => exact fun folded there => .inl there
  | cons first rest ih =>
    intro folded there
    rcases ih _ there with early | late
    · unfold step at early
      split at early
      · exact .inl (List.mem_of_mem_tail early)
      · rcases List.mem_cons.mp early with rfl | before
        · exact .inr (by simp)
        · exact .inl before
    · exact .inr (List.mem_cons_of_mem _ late)

theorem Clean.fold {parts : List (List Char)} (clean : Clean parts) : Clean (fold parts) :=
  fun part member => clean part (mem_of_mem_fold member)

theorem split_append_flatMap {part : List Char} {parts : List (List Char)}
    (clear : '/' ∉ part) (clean : Clean parts) :
    split (part ++ parts.flatMap fun part => '/' :: part) = part :: parts := by
  have plain {part : List Char} (clear : '/' ∉ part) : ∀ c ∈ part, decide (c = '/') = false :=
    fun c member => by simpa using ne_of_mem_of_not_mem member clear
  induction parts generalizing part with
  | nil => simpa [split] using Text.split_of_forall_not_mark (plain clear)
  | cons next rest ih =>
    obtain ⟨⟨_, next_clear⟩, rest_clean⟩ := List.forall_mem_cons.mp clean
    rw [List.flatMap_cons, List.cons_append, split,
      Text.split_append_mark (plain clear) (by simp)]
    exact congrArg _ (ih next_clear rest_clean)

theorem components_ofComponents {parts : List (List Char)} (clean : Clean parts) :
    components (ofComponents parts) = parts := by
  have solid : parts.filter (fun piece => !isVoid piece) = parts :=
    List.filter_eq_self.mpr fun part member => by simp [(clean part member).1]
  cases parts with
  | nil => decide
  | cons first rest =>
    have whole : split ([] ++ (first :: rest).flatMap fun part => '/' :: part) =
        [] :: first :: rest := split_append_flatMap (by simp) clean
    rw [List.nil_append] at whole
    rw [components, ofComponents, whole, List.filter_cons_of_neg (by simp [isVoid]), solid]
    simp

theorem fold_of_not_mem {parts : List (List Char)} (none_back : parentMark ∉ parts) :
    fold parts = parts := by
  suffices general : ∀ folded, parts.foldl step folded = parts.reverse ++ folded by
    simp [fold, general]
  induction parts with
  | nil => exact fun folded => rfl
  | cons first rest ih =>
    intro folded
    obtain ⟨other, later⟩ := not_or.mp (mt List.mem_cons.mpr none_back)
    rw [List.foldl_cons, step, if_neg fun same => other same.symm, ih later]
    simp

/-- The path of folded components is its own normal form. -/
theorem normalize_ofComponents_fold {parts : List (List Char)} (clean : Clean parts) :
    normalize (ofComponents (fold parts)) = ofComponents (fold parts) := by
  rw [normalize, components_ofComponents clean.fold,
    fold_of_not_mem (parentMark_not_mem_fold parts)]

theorem normalize_normalize (path : List Char) : normalize (normalize path) = normalize path :=
  normalize_ofComponents_fold (clean_components path)

theorem head?_ofComponents (parts : List (List Char)) : (ofComponents parts).head? = some '/' := by
  cases parts <;> simp [ofComponents]

end DocRefs.Location.Path
