import DocRefs.Text.Sorted

/-!
# Reference graphs

Which definitions refer to which, and the cycles among them. Definitions and targets are kept in
order, so a graph does not depend on how it was put together.

`cycles` searches in depth from every definition in order. An edge back into the path of the search
closes a cycle; a graph without such an edge has no cycle, and every cycle of the graph has at least
one.
-/
namespace DocRefs

/-- A cycle that a search has met. -/
structure Cycle where
  /-- The definitions around the cycle; the first one comes again at the end. -/
  members : List String
  /-- How far down the path of the search the cycle begins. -/
  depth : Nat
  deriving DecidableEq, Repr, Inhabited

namespace Graph

/-- Changes the targets of a definition, which is put in its place if it is new. -/
def update (definition : String) (change : List String → List String) :
    List (String × List String) → List (String × List String)
  | [] => [(definition, change [])]
  | (d, targets) :: rest =>
    if definition = d then (d, change targets) :: rest
    else if definition < d then (definition, change []) :: (d, targets) :: rest
    else (d, targets) :: update definition change rest

theorem mem_keys_update {definition other : String} {change : List String → List String}
    {rows : List (String × List String)} :
    other ∈ (update definition change rows).map (·.1) ↔
      other = definition ∨ other ∈ rows.map (·.1) := by
  induction rows with
  | nil => simp [update]
  | cons row rest ih =>
    unfold update
    split
    · simp_all
    · split
      · simp
      · simp only [List.map_cons, List.mem_cons, ih]
        exact or_left_comm

theorem mem_update {definition : String} {change : List String → List String}
    {row : String × List String} {rows : List (String × List String)}
    (member : row ∈ update definition change rows) :
    row ∈ rows ∨ ∃ old, (old = [] ∨ (definition, old) ∈ rows) ∧ row = (definition, change old) := by
  induction rows with
  | nil => exact .inr ⟨[], .inl rfl, by simpa [update] using member⟩
  | cons first rest ih =>
    obtain ⟨d, targets⟩ := first
    unfold update at member
    split at member
    next same =>
      subst same
      rcases List.mem_cons.1 member with rfl | later
      · exact .inr ⟨targets, .inr (by simp), rfl⟩
      · exact .inl (by simp [later])
    · split at member
      · rcases List.mem_cons.1 member with rfl | later
        · exact .inr ⟨[], .inl rfl, rfl⟩
        · exact .inl later
      · rcases List.mem_cons.1 member with rfl | later
        · exact .inl (by simp)
        · rcases ih later with old | ⟨old, source, same⟩
          · exact .inl (by simp [old])
          · exact .inr ⟨old, source.imp_right (by simp [·]), same⟩

/-- The rows of a table are in order. -/
def InOrder (rows : List (String × List String)) : Prop := (rows.map (·.1)).Pairwise (· < ·)

theorem inOrder_update (definition : String) (change : List String → List String) :
    {rows : List (String × List String)} → InOrder rows → InOrder (update definition change rows)
  | [], _ => by simp [InOrder, update]
  | (d, targets) :: rest, ordered => by
    have ⟨least, ordered_rest⟩ := List.pairwise_cons.1 ordered
    unfold update
    split
    · exact List.pairwise_cons.2 ⟨least, ordered_rest⟩
    · rename_i differ
      split
      · rename_i below
        refine List.pairwise_cons.2 ⟨fun other member => ?_, ordered⟩
        rcases List.mem_cons.1 member with rfl | later
        · exact below
        · exact String.lt_trans below (least other later)
      · rename_i above
        refine List.pairwise_cons.2 ⟨fun other member => ?_,
          inOrder_update definition change ordered_rest⟩
        rcases mem_keys_update.1 member with rfl | later
        · exact Decidable.byContradiction fun no =>
            differ (String.le_antisymm (String.not_lt.1 no) (String.not_lt.1 above))
        · exact least other later

/-- The targets of every definition are in order, and each is a definition. -/
def Linked (rows : List (String × List String)) : Prop :=
  ∀ row ∈ rows, row.2.Pairwise (· < ·) ∧ ∀ target ∈ row.2, target ∈ rows.map (·.1)

/-- A change that keeps targets in order and adds definitions only keeps a table linked. -/
theorem linked_update {definition : String} {change : List String → List String}
    {rows : List (String × List String)} (linked : Linked rows)
    (sorted : ∀ old, old.Pairwise (· < ·) → (change old).Pairwise (· < ·))
    (added : ∀ old, ∀ target ∈ change old, target ∈ old ∨ target ∈ rows.map (·.1)) :
    Linked (update definition change rows) := by
  intro row member
  rcases mem_update member with old | ⟨old, source, rfl⟩
  · exact ⟨(linked row old).1, fun target there =>
      mem_keys_update.2 (.inr ((linked row old).2 target there))⟩
  · have before : old.Pairwise (· < ·) ∧ ∀ target ∈ old, target ∈ rows.map (·.1) := by
      rcases source with rfl | present
      · simp
      · exact linked _ present
    refine ⟨sorted old before.1, fun target there => mem_keys_update.2 (.inr ?_)⟩
    exact (added old target there).elim (before.2 target) id

end Graph

structure Graph where
  rows : List (String × List String)
  ordered : Graph.InOrder rows
  linked : Graph.Linked rows

namespace Graph

def empty : Graph := ⟨[], by simp [InOrder], by simp [Linked]⟩

instance : Inhabited Graph := ⟨empty⟩

def addDefinition (g : Graph) (definition : String) : Graph where
  rows := update definition id g.rows
  ordered := inOrder_update definition id g.ordered
  linked := linked_update g.linked (fun _ => id) (fun _ _ => .inl)

/-- Both ends of an edge are definitions. -/
def addEdge (g : Graph) (source target : String) : Graph where
  rows := update source (Text.insertSorted target) (g.addDefinition target).rows
  ordered := inOrder_update source _ (g.addDefinition target).ordered
  linked := linked_update (g.addDefinition target).linked (fun _ => Text.pairwise_insertSorted)
    fun old other member => by
      rcases Text.mem_insertSorted.1 member with rfl | before
      · exact .inr (mem_keys_update.2 (.inl rfl))
      · exact .inl before

def definitions (g : Graph) : List String := g.rows.map (·.1)

def targets (g : Graph) (definition : String) : List String :=
  (g.rows.lookup definition).getD []

def edgeCount (g : Graph) : Nat := g.rows.foldl (fun count (_, targets) => count + targets.length) 0

/-- The definition `source` refers to `target`. -/
def Edge (g : Graph) (source target : String) : Prop := target ∈ g.targets source

instance (g : Graph) (source target : String) : Decidable (g.Edge source target) :=
  inferInstanceAs (Decidable (target ∈ g.targets source))

/-! ## Cycles -/

/-- What a search has met so far. -/
structure Search where
  visited : List String := []
  /-- The definitions whose own search has not ended. -/
  active : List String := []
  /-- The cycles, the last one first. -/
  cycles : List Cycle := []
  deriving Repr, Inhabited

namespace Search

/-- The search of a definition begins. -/
def enter (s : Search) (definition : String) : Search :=
  { s with visited := definition :: s.visited, active := definition :: s.active }

/-- The search of a definition ends. -/
def leave (s : Search) (definition : String) : Search :=
  { s with active := s.active.filter (· ≠ definition) }

/-- An edge from the end of the path to `target`, which has been met before. -/
def meet (s : Search) (path : List String) (target : String) : Search :=
  if s.active.contains target then
    match path.idxOf? target with
    -- The cycle begins where the path meets `target` and ends with it.
    | some depth => { s with cycles := ⟨path.drop depth ++ [target], depth⟩ :: s.cycles }
    | none => s
  else s

end Search

/-- Searches what can be reached from the end of the path, with at most `steps` definitions more. -/
def search (g : Graph) : (steps : Nat) → (path : List String) → String → Search → Search
  | 0, _, _, s => s
  | steps + 1, path, definition, s =>
    let path := path ++ [definition]
    ((g.targets definition).foldl (fun s target =>
      -- What was met before is not searched again; it closes a cycle only if it is on the path.
      if s.visited.contains target then s.meet path target
      else search g steps path target s) (s.enter definition)).leave definition

/-- Searches from every definition that no search has met yet. -/
def searchAll (g : Graph) : Search :=
  g.definitions.foldl (fun s definition =>
    if s.visited.contains definition then s
    -- A path visits no definition twice, so it is never longer than the list of definitions.
    else search g g.definitions.length [] definition s) {}

/-- The cycles in the order in which they are met. -/
def cycles (g : Graph) : List Cycle := g.searchAll.cycles.reverse

end Graph

end DocRefs
