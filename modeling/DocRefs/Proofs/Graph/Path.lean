import DocRefs.Proofs.Graph.Edge
import Mathlib.Data.List.Chain
import Mathlib.Data.List.Infix

/-!
# Paths of a reference graph

A path visits definitions along edges and none of them twice. Paths are compared where they part:
the one that takes the smaller definition there turns off first. The first path to a definition is
the one that no other path to it turns off before, so there is at most one (`IsFirst.unique`).
-/
namespace DocRefs.Graph

/-! ### Paths -/

/-- What may come next on a path: any definition at its start, and then a target of its end. -/
def after (g : Graph) (path : List String) : List String :=
  match path.getLast? with
  | none => g.definitions
  | some definition => g.targets definition

@[simp] theorem after_nil (g : Graph) : g.after [] = g.definitions := rfl

@[simp] theorem after_concat (g : Graph) (path : List String) (definition : String) :
    g.after (path ++ [definition]) = g.targets definition := by
  simp [after]

theorem after_ordered (g : Graph) (path : List String) : (g.after path).Pairwise (· < ·) := by
  unfold after
  split
  · exact g.ordered
  · exact g.targets_ordered _

theorem defined_of_after {g : Graph} {path : List String} {definition : String}
    (next : definition ∈ g.after path) : definition ∈ g.definitions := by
  unfold after at next
  split at next
  · exact next
  · exact target_defined next

/-- Definitions that follow each other along edges, none of them twice. -/
structure IsPath (g : Graph) (path : List String) : Prop where
  chain : path.IsChain g.Edge
  nodup : path.Nodup
  defined : ∀ definition ∈ path, definition ∈ g.definitions

theorem isPath_nil (g : Graph) : g.IsPath [] := ⟨by simp, by simp, by simp⟩

theorem IsPath.of_append {g : Graph} {path rest : List String} (walk : g.IsPath (path ++ rest)) :
    g.IsPath path where
  chain := walk.chain.left_of_append
  nodup := (List.nodup_append.mp walk.nodup).1
  defined definition member := walk.defined definition (List.mem_append_left _ member)

theorem isPath_concat {g : Graph} {path : List String} {definition : String} :
    g.IsPath (path ++ [definition]) ↔
      g.IsPath path ∧ definition ∈ g.after path ∧ definition ∉ path := by
  constructor
  · intro walk
    refine ⟨walk.of_append, ?_, fun member => ?_⟩
    · cases last : path.getLast? with
      | none =>
        rw [List.getLast?_eq_none_iff.mp last]
        exact walk.defined definition (by simp)
      | some source =>
        have edge := (List.isChain_append.mp walk.chain).2.2 source last definition (by simp)
        simpa [after, last, Edge] using edge
    · exact (List.nodup_append.mp walk.nodup).2.2 definition member definition (by simp) rfl
  · rintro ⟨walk, next, fresh⟩
    refine ⟨List.isChain_append.mpr ⟨walk.chain, by simp, ?_⟩, ?_, ?_⟩
    · intro source last target head
      obtain rfl : definition = target := by simpa using head
      have last : path.getLast? = some source := last
      simpa [after, last, Edge] using next
    · exact List.nodup_append.mpr ⟨walk.nodup, by simp, fun other member target head same =>
        fresh (by simp_all)⟩
    · intro other member
      rcases List.mem_append.mp member with old | new
      · exact walk.defined other old
      · obtain rfl : other = definition := by simpa using new
        exact defined_of_after next

/-- What comes next on a path comes after its beginning and is not on it. -/
theorem IsPath.next {g : Graph} {path rest : List String} {definition : String}
    (walk : g.IsPath (path ++ definition :: rest)) :
    definition ∈ g.after path ∧ definition ∉ path := by
  have shorter : g.IsPath (path ++ [definition]) := by
    rw [List.append_cons] at walk
    exact walk.of_append
  exact (isPath_concat.mp shorter).2

theorem IsPath.length_le {g : Graph} {path : List String} (walk : g.IsPath path) :
    path.length ≤ g.definitions.length :=
  walk.nodup.length_le_of_subset walk.defined

/-! ### Order of paths -/

/-- Where the two paths part, the first one takes the smaller definition. -/
def TurnsBefore (path other : List String) : Prop :=
  ∃ shared a b rest more, a < b ∧ path = shared ++ a :: rest ∧ other = shared ++ b :: more

theorem TurnsBefore.append {path other : List String} (before : TurnsBefore path other)
    (rest : List String) : TurnsBefore path (other ++ rest) := by
  obtain ⟨shared, a, b, tail, more, less, rfl, rfl⟩ := before
  exact ⟨shared, a, b, tail, more ++ rest, less, rfl, by simp⟩

/-- Turning off before a longer path is turning off before it or at its end. -/
theorem turnsBefore_concat {path other : List String} {definition : String}
    (before : TurnsBefore path (other ++ [definition])) :
    TurnsBefore path other ∨ ∃ a rest, a < definition ∧ path = other ++ a :: rest := by
  obtain ⟨shared, a, b, rest, more, less, rfl, same⟩ := before
  rcases List.eq_nil_or_concat more with rfl | ⟨more, last, rfl⟩
  · obtain ⟨rfl, rfl⟩ : other = shared ∧ definition = b := by simpa using same
    exact .inr ⟨a, rest, less, rfl⟩
  · have same : other ++ [definition] = (shared ++ b :: more) ++ [last] := by simpa using same
    obtain ⟨rfl, -⟩ := List.append_inj' same rfl
    exact .inl ⟨shared, a, b, rest, more, less, rfl, rfl⟩

/-- Two paths part somewhere unless one continues the other. -/
theorem prefix_or_turnsBefore (path other : List String) :
    path <+: other ∨ other <+: path ∨ TurnsBefore path other ∨ TurnsBefore other path := by
  induction path generalizing other with
  | nil => exact .inl List.nil_prefix
  | cons a path ih =>
    cases other with
    | nil => exact .inr (.inl List.nil_prefix)
    | cons b other =>
      by_cases less : a < b
      · exact .inr (.inr (.inl ⟨[], a, b, path, other, less, rfl, rfl⟩))
      by_cases more : b < a
      · exact .inr (.inr (.inr ⟨[], b, a, other, path, more, rfl, rfl⟩))
      -- The paths begin alike, so they part further on if they part at all.
      · obtain rfl : a = b := String.le_antisymm (String.not_lt.mp more) (String.not_lt.mp less)
        have further {p q : List String} : TurnsBefore p q → TurnsBefore (a :: p) (a :: q) := by
          rintro ⟨shared, c, d, rest, more, less, rfl, rfl⟩
          exact ⟨a :: shared, c, d, rest, more, less, rfl, rfl⟩
        rcases ih other with longer | shorter | before | behind
        · exact .inl (List.cons_prefix_cons.mpr ⟨rfl, longer⟩)
        · exact .inr (.inl (List.cons_prefix_cons.mpr ⟨rfl, shorter⟩))
        · exact .inr (.inr (.inl (further before)))
        · exact .inr (.inr (.inr (further behind)))

/-- No path to the same end turns off before this one. -/
structure IsFirst (g : Graph) (path : List String) : Prop where
  isPath : g.IsPath path
  first : ∀ other, g.IsPath other → other.getLast? = path.getLast? → ¬ TurnsBefore other path

theorem IsFirst.unique {g : Graph} {path other : List String} {definition : String}
    (first : g.IsFirst (path ++ [definition])) (also : g.IsFirst (other ++ [definition])) :
    path = other := by
  -- Both end in the definition and meet it only once, so neither continues the other.
  have apart {p q : List String} (walk : g.IsPath (q ++ [definition]))
      (continues : p ++ [definition] <+: q ++ [definition]) : p = q := by
    rcases List.prefix_concat_iff.mp continues with same | shorter
    · simpa using same
    · exact absurd (shorter.subset (by simp)) (isPath_concat.mp walk).2.2
  rcases prefix_or_turnsBefore (path ++ [definition]) (other ++ [definition]) with
    longer | shorter | before | behind
  · exact apart also.isPath longer
  · exact (apart first.isPath shorter).symm
  · exact absurd before (also.first _ first.isPath (by simp))
  · exact absurd behind (first.first _ also.isPath (by simp))

end DocRefs.Graph
