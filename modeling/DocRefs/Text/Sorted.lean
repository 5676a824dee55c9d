/-!
# Texts in order

Lists of texts in ascending order of code points, each text once.
-/
namespace DocRefs.Text

/-- Puts a text in its place among texts in order. -/
def insertSorted (text : String) : List String → List String
  | [] => [text]
  | first :: rest =>
    if text = first then first :: rest
    else if text < first then text :: first :: rest
    else first :: insertSorted text rest

/-- The texts in order, each once. -/
def sorted (texts : List String) : List String := texts.foldr insertSorted []

theorem mem_insertSorted {text other : String} {texts : List String} :
    other ∈ insertSorted text texts ↔ other = text ∨ other ∈ texts := by
  induction texts with
  | nil => simp [insertSorted]
  | cons first rest ih =>
    unfold insertSorted
    split
    · simp_all
    · split
      · simp
      · simp only [List.mem_cons, ih]
        exact or_left_comm

theorem mem_sorted {other : String} {texts : List String} :
    other ∈ sorted texts ↔ other ∈ texts := by
  induction texts with
  | nil => simp [sorted]
  | cons text rest ih => simpa [sorted, mem_insertSorted] using or_congr Iff.rfl ih

theorem pairwise_insertSorted {text : String} {texts : List String}
    (ordered : texts.Pairwise (· < ·)) : (insertSorted text texts).Pairwise (· < ·) := by
  induction texts with
  | nil => simp [insertSorted]
  | cons first rest ih =>
    have ⟨least, ordered_rest⟩ := List.pairwise_cons.1 ordered
    unfold insertSorted
    split
    · exact ordered
    · rename_i differ
      split
      · rename_i below
        refine List.pairwise_cons.2 ⟨fun other member => ?_, ordered⟩
        rcases List.mem_cons.1 member with rfl | later
        · exact below
        · exact String.lt_trans below (least other later)
      · rename_i above
        refine List.pairwise_cons.2 ⟨fun other member => ?_, ih ordered_rest⟩
        rcases mem_insertSorted.1 member with rfl | later
        · exact Decidable.byContradiction fun no =>
            differ (String.le_antisymm (String.not_lt.1 no) (String.not_lt.1 above))
        · exact least other later

theorem pairwise_sorted (texts : List String) : (sorted texts).Pairwise (· < ·) := by
  induction texts with
  | nil => simp [sorted]
  | cons text rest ih => exact pairwise_insertSorted ih

end DocRefs.Text
