/-!
# Splitting text

A text splits at its separators into one piece more than it has separators. Nothing but the
separators is lost: joining the pieces with them gives the text back (`intercalate_split`).
-/
namespace DocRefs.Text

/-- The pieces between the characters that `isMark` picks. -/
def split (isMark : Char → Bool) : List Char → List (List Char)
  | [] => [[]]
  | c :: rest =>
    if isMark c then [] :: split isMark rest
    else match split isMark rest with
      | piece :: pieces => (c :: piece) :: pieces
      | [] => [[c]]

theorem split_ne_nil (isMark : Char → Bool) (text : List Char) : split isMark text ≠ [] := by
  cases text with
  | nil => simp [split]
  | cons c rest =>
    unfold split
    split
    · simp
    · split <;> simp

theorem split_of_mark {isMark : Char → Bool} {c : Char} (mark : isMark c = true)
    (rest : List Char) : split isMark (c :: rest) = [] :: split isMark rest := by
  simp [split, mark]

theorem split_of_not_mark {isMark : Char → Bool} {c : Char} (plain : isMark c = false)
    (rest : List Char) :
    split isMark (c :: rest) =
      (c :: (split isMark rest).headD []) :: (split isMark rest).tail := by
  rw [split, if_neg (by simp [plain])]
  split <;> simp_all [split_ne_nil]

theorem not_mark_of_mem_split {isMark : Char → Bool} {text piece : List Char}
    (member : piece ∈ split isMark text) : ∀ c ∈ piece, isMark c = false := by
  induction text generalizing piece with
  | nil => simp_all [split]
  | cons c rest ih =>
    cases mark : isMark c with
    | true =>
      rw [split_of_mark mark] at member
      rcases List.mem_cons.mp member with rfl | later
      · simp
      · exact ih later
    | false =>
      obtain ⟨first, more, pieces⟩ := List.exists_cons_of_ne_nil (split_ne_nil isMark rest)
      rw [split_of_not_mark mark, pieces] at member
      rcases List.mem_cons.mp member with rfl | later
      · exact List.forall_mem_cons.mpr ⟨mark, ih (by simp [pieces])⟩
      · exact ih (by rw [pieces]; exact List.mem_cons_of_mem _ later)

theorem mem_of_mem_split {isMark : Char → Bool} {text piece : List Char}
    (member : piece ∈ split isMark text) {c : Char} (inside : c ∈ piece) : c ∈ text := by
  induction text generalizing piece with
  | nil => simp_all [split]
  | cons d rest ih =>
    obtain ⟨first, more, pieces⟩ := List.exists_cons_of_ne_nil (split_ne_nil isMark rest)
    rw [pieces] at ih
    cases mark : isMark d with
    | true =>
      rw [split_of_mark mark, pieces] at member
      rcases List.mem_cons.mp member with rfl | later
      · simp at inside
      · exact List.mem_cons_of_mem d (ih later inside)
    | false =>
      rw [split_of_not_mark mark, pieces] at member
      rcases List.mem_cons.mp member with rfl | later
      · rcases List.mem_cons.mp inside with rfl | there
        · exact List.mem_cons_self
        · exact List.mem_cons_of_mem d (ih List.mem_cons_self there)
      · exact List.mem_cons_of_mem d (ih (List.mem_cons_of_mem first later) inside)

/-- At a separator the text can be cut in two. -/
theorem split_append_cons {isMark : Char → Bool} {c : Char} (mark : isMark c = true)
    (front rest : List Char) :
    split isMark (front ++ c :: rest) = split isMark front ++ split isMark rest := by
  induction front with
  | nil => exact split_of_mark mark rest
  | cons d front ih =>
    cases here : isMark d with
    | true => rw [List.cons_append, split_of_mark here, split_of_mark here, ih, List.cons_append]
    | false =>
      obtain ⟨piece, pieces, cut⟩ := List.exists_cons_of_ne_nil (split_ne_nil isMark front)
      rw [List.cons_append, split_of_not_mark here, split_of_not_mark here, ih, cut]
      rfl

theorem split_of_forall_not_mark {isMark : Char → Bool} {text : List Char}
    (plain : ∀ d ∈ text, isMark d = false) : split isMark text = [text] := by
  induction text with
  | nil => rfl
  | cons d rest ih =>
    obtain ⟨here, later⟩ := List.forall_mem_cons.mp plain
    rw [split_of_not_mark here, ih later]
    rfl

theorem split_append_mark {isMark : Char → Bool} {front : List Char} {c : Char}
    (plain : ∀ d ∈ front, isMark d = false) (mark : isMark c = true) (rest : List Char) :
    split isMark (front ++ c :: rest) = front :: split isMark rest := by
  rw [split_append_cons mark, split_of_forall_not_mark plain]
  rfl

/-- Pieces without separators are cut out again after they are joined. -/
theorem split_intercalate {isMark : Char → Bool} {mark : Char} (isSo : isMark mark = true)
    {pieces : List (List Char)} (some_there : pieces ≠ [])
    (plain : ∀ piece ∈ pieces, ∀ c ∈ piece, isMark c = false) :
    split isMark ([mark].intercalate pieces) = pieces := by
  induction pieces with
  | nil => exact absurd rfl some_there
  | cons piece rest ih =>
    obtain ⟨here, later⟩ := List.forall_mem_cons.mp plain
    cases rest with
    | nil => simpa [List.intercalate] using split_of_forall_not_mark here
    | cons next more =>
      have joined : [mark].intercalate (piece :: next :: more) =
          piece ++ mark :: [mark].intercalate (next :: more) := by
        simp [List.intercalate, List.intersperse]
      rw [joined, split_append_mark here isSo, ih (by simp) later]

theorem intercalate_split (mark : Char) (text : List Char) :
    [mark].intercalate (split (· = mark) text) = text := by
  induction text with
  | nil => rfl
  | cons c rest ih =>
    by_cases same : c = mark
    · rw [split_of_mark (by simpa using same)]
      obtain ⟨piece, pieces, pieces_eq⟩ := List.exists_cons_of_ne_nil (split_ne_nil (· = mark) rest)
      rw [pieces_eq] at ih ⊢
      simp_all [List.intercalate, List.intersperse]
    · rw [split_of_not_mark (by simpa using same)]
      obtain ⟨piece, pieces, pieces_eq⟩ := List.exists_cons_of_ne_nil (split_ne_nil (· = mark) rest)
      rw [pieces_eq] at ih ⊢
      cases pieces <;> simp_all [List.intercalate, List.intersperse]

end DocRefs.Text
