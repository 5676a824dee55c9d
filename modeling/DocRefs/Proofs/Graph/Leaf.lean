import DocRefs.Proofs.Graph.Search
import Mathlib.Data.List.Sort

/-!
# Definitions that lead nowhere

A definition without targets closes no cycle, and no search depends on whether it has been visited.
Main result: `cycles_congr`. Graphs that agree on some definitions, and have no edges from others,
have the same cycles in the same order. Their searches run side by side (`search_agrees`); a look at
another definition changes nothing that the searches agree on (`Search.Agrees.look_left`), and the
definitions that are left bound the steps of both.
-/
namespace DocRefs.Graph

variable {own : String → Bool} {s t : Search} {g h : Graph} {d : String} {path : List String}

/-! ### Searches that agree -/

/-- The searches have met the same definitions of `own`, and only such are on the path. -/
structure Search.Agrees (own : String → Bool) (s t : Search) : Prop where
  cycles : s.cycles = t.cycles
  active : s.active = t.active
  inside : ∀ d ∈ s.active, own d = true
  visited : ∀ d, own d = true → (d ∈ s.visited ↔ d ∈ t.visited)

namespace Search.Agrees

theorem symm (agrees : Agrees own s t) : Agrees own t s where
  cycles := agrees.cycles.symm
  active := agrees.active.symm
  inside d on := agrees.inside d (agrees.active ▸ on)
  visited d inside := (agrees.visited d inside).symm

theorem enter (agrees : Agrees own s t) (inside : own d = true) :
    Agrees own (s.enter d) (t.enter d) where
  cycles := agrees.cycles
  active := congrArg (d :: ·) agrees.active
  inside := List.forall_mem_cons.mpr ⟨inside, agrees.inside⟩
  visited e own_e := by simp [Search.enter, agrees.visited e own_e]

theorem leave (agrees : Agrees own s t) (d : String) : Agrees own (s.leave d) (t.leave d) where
  cycles := agrees.cycles
  active := congrArg (List.filter (· ≠ d)) agrees.active
  inside e on := agrees.inside e (List.mem_of_mem_filter on)
  visited := agrees.visited

theorem meet (agrees : Agrees own s t) (path : List String) (d : String) :
    Agrees own (s.meet path d) (t.meet path d) := by
  unfold Search.meet
  rw [← agrees.active]
  split
  · split
    · exact ⟨congrArg (_ :: ·) agrees.cycles, rfl, agrees.inside, agrees.visited⟩
    · exact agrees
  · exact agrees

/-- A look at a definition that leads nowhere leaves only the visit. -/
theorem look_left (agrees : Agrees own s t) (outside : own d = false) (leaf : g.targets d = [])
    (steps : Nat) (path : List String) : Agrees own (g.look steps path s d) t := by
  have off : d ∉ s.active := fun on => by simp [agrees.inside d on] at outside
  unfold Graph.look
  split
  · rwa [meet_of_not_active off]
  cases steps with
  | zero => exact agrees
  | succ steps =>
    rw [search_succ, after_concat, leaf, List.foldl_nil]
    have back : (d :: s.active).filter (· ≠ d) = s.active := by
      rw [List.filter_cons_of_neg (by simp), List.filter_eq_self]
      exact fun e on => decide_eq_true fun same => off (same ▸ on)
    refine ⟨agrees.cycles, back.trans agrees.active, ?_, fun e inside => ?_⟩
    · exact fun e on => agrees.inside e (back ▸ on)
    · have other : e ≠ d := fun same => by simp [← same, inside] at outside
      simp [Search.leave, Search.enter, other, agrees.visited e inside]

end Search.Agrees

/-! ### What is left -/

theorem visited_meet (s : Search) (path : List String) (d : String) :
    (s.meet path d).visited = s.visited := by
  unfold Search.meet
  split
  · split <;> rfl
  · rfl

theorem subset_look {steps : Nat}
    (searches : ∀ s d, s.visited ⊆ (g.search steps path d s).visited) (s : Search) (d : String) :
    s.visited ⊆ (g.look steps path s d).visited := by
  unfold look
  split
  · rw [visited_meet]
    exact fun _ => id
  · exact searches s d

theorem subset_search (g : Graph) (steps : Nat) (path : List String) (s : Search) (d : String) :
    s.visited ⊆ (g.search steps path d s).visited := by
  induction steps generalizing path s d with
  | zero => exact fun _ => id
  | succ steps ih =>
    rw [search_succ]
    exact List.foldlRecOn (motive := fun now : Search => s.visited ⊆ now.visited) _ _
      (fun _ => List.mem_cons_of_mem d) fun now grown e _ =>
        List.Subset.trans grown (subset_look (fun now e => ih _ now e) now e)

/-- How many of the definitions have not been visited. -/
def Search.left (s : Search) (definitions : List String) : Nat :=
  (definitions.filter fun d => !s.visited.contains d).length

theorem Search.left_le {definitions : List String} (grown : s.visited ⊆ t.visited) :
    t.left definitions ≤ s.left definitions := by
  refine (List.monotone_filter_right definitions fun d new => ?_).length_le
  simp only [Bool.not_eq_true', List.contains_eq_mem, decide_eq_false_iff_not] at new ⊢
  exact fun there => new (grown there)

theorem Search.left_enter_lt {definitions : List String} (member : d ∈ definitions)
    (new : d ∉ s.visited) : (s.enter d).left definitions < s.left definitions := by
  have fewer : (definitions.filter fun e => !(s.enter d).visited.contains e) =
      (definitions.filter fun e => !s.visited.contains e).filter (· ≠ d) := by
    rw [List.filter_filter]
    refine List.filter_congr fun e _ => ?_
    simp [Search.enter, eq_comm]
  have there : d ∈ definitions.filter fun e => !s.visited.contains e :=
    List.mem_filter.mpr ⟨member, by simpa using new⟩
  rw [left, left, fewer]
  exact List.length_filter_lt_length_iff_exists.mpr ⟨d, there, by simp⟩

/-! ### Side by side -/

/-- Two runs over lists that agree on `own`, where other members change nothing in common. -/
theorem foldl_agrees {α β : Type} {P : α → β → Prop} {f : α → String → α} {f' : β → String → β}
    (left : ∀ a b e, own e = false → P a b → P (f a e) b)
    (right : ∀ a b e, own e = false → P a b → P a (f' b e)) {xs ys : List String}
    (same : xs.filter own = ys.filter own)
    (both : ∀ a b, ∀ e ∈ xs, own e = true → P a b → P (f a e) (f' b e)) {a : α} {b : β}
    (start : P a b) : P (xs.foldl f a) (ys.foldl f' b) := by
  induction xs generalizing ys a b with
  | nil =>
    have outside := List.filter_eq_nil_iff.mp same.symm
    exact List.foldlRecOn ys f' start fun b holds e member =>
      right a b e (by simpa using outside e member) holds
  | cons x xs ih =>
    have both_later := fun a b e member => both a b e (List.mem_cons_of_mem x member)
    cases inside : own x with
    | false =>
      rw [List.filter_cons_of_neg (by simp [inside])] at same
      exact ih same both_later (left a b x inside start)
    | true =>
      -- The other run comes to `x` too, past members that change nothing.
      rw [List.filter_cons_of_pos inside] at same
      obtain ⟨before, after, rfl, outside, -, later⟩ := List.filter_eq_cons_iff.mp same.symm
      rw [List.foldl_append, List.foldl_cons, List.foldl_cons]
      refine ih later.symm both_later (both _ _ x (by simp) inside ?_)
      exact List.foldlRecOn before f' start fun b holds e member =>
        right a b e (by simpa using outside e member) holds

/-- The graphs agree on the definitions of `own`, and others have no targets. -/
structure Agree (own : String → Bool) (g h : Graph) : Prop where
  after : ∀ path, (g.after path).filter own = (h.after path).filter own
  leaf : ∀ d, own d = false → g.targets d = []
  leaf' : ∀ d, own d = false → h.targets d = []

/-- The searches agree, and with so many steps each of them can visit what is left. -/
structure Search.Abreast (own : String → Bool) (definitions : List String) (m n : Nat)
    (s t : Search) : Prop extends Search.Agrees own s t where
  enough : s.left definitions ≤ m
  enough' : s.left definitions ≤ n

theorem Search.Abreast.later {definitions : List String} {m n : Nat} {s' t' : Search}
    (abreast : s.Abreast own definitions m n t) (grown : s.visited ⊆ s'.visited)
    (agrees : s'.Agrees own t') : s'.Abreast own definitions m n t' :=
  ⟨agrees, (Search.left_le grown).trans abreast.enough,
    (Search.left_le grown).trans abreast.enough'⟩

/-- Looks at what comes next keep the searches abreast if the searches from there agree. -/
theorem looks_abreast (graphs : Agree own g h) {m n : Nat}
    (searches : ∀ s t d, s.Abreast own (g.definitions.filter own) m n t → own d = true →
      d ∈ g.definitions → d ∉ s.visited →
        (g.search m path d s).Agrees own (h.search n path d t))
    (abreast : s.Abreast own (g.definitions.filter own) m n t) :
    ((g.after path).foldl (g.look m path) s).Abreast own (g.definitions.filter own) m n
      ((h.after path).foldl (h.look n path) t) := by
  refine foldl_agrees ?_ ?_ (graphs.after path) ?_ abreast
  · intro s t e outside abreast
    exact abreast.later (subset_look (g.subset_search m path) s e)
      (abreast.look_left outside (graphs.leaf e outside) m path)
  · intro s t e outside abreast
    exact abreast.later (fun _ => id)
      (abreast.symm.look_left outside (graphs.leaf' e outside) n path).symm
  · intro s t e next inside abreast
    refine abreast.later (subset_look (g.subset_search m path) s e) ?_
    have met := abreast.visited e inside
    unfold look
    by_cases there : e ∈ s.visited
    · rw [if_pos (by simpa using there), if_pos (by simpa [met] using there)]
      exact abreast.meet path e
    · rw [if_neg (by simpa using there), if_neg (by simpa [met] using there)]
      exact searches s t e abreast inside (defined_of_after next) there

theorem search_agrees (graphs : Agree own g h) (m n : Nat)
    (abreast : s.Abreast own (g.definitions.filter own) m n t) (inside : own d = true)
    (defined : d ∈ g.definitions) (new : d ∉ s.visited) :
    (g.search m path d s).Agrees own (h.search n path d t) := by
  induction m generalizing n path d s t with
  | zero =>
    have fewer := Search.left_enter_lt (List.mem_filter.mpr ⟨defined, inside⟩) new
    exact absurd abreast.enough (by omega)
  | succ m ih =>
    have fewer := Search.left_enter_lt (List.mem_filter.mpr ⟨defined, inside⟩) new
    have left := abreast.enough
    have right := abreast.enough'
    cases n with
    | zero => omega
    | succ n =>
      rw [search_succ, search_succ]
      refine Search.Agrees.leave (looks_abreast graphs (fun s t e => ih n) ?_).toAgrees d
      exact ⟨abreast.enter inside, by omega, by omega⟩

/-- Graphs that agree on the edges among some definitions, and have no edges from others, have the
same cycles, whatever else is a definition or a target in them. -/
theorem cycles_congr (defined : ∀ d, own d = true → (d ∈ g.definitions ↔ d ∈ h.definitions))
    (edges : ∀ d e, own d = true → own e = true → (g.Edge d e ↔ h.Edge d e))
    (sources : ∀ d e, g.Edge d e → own d = true) (sources' : ∀ d e, h.Edge d e → own d = true) :
    g.cycles = h.cycles := by
  have leaf (g : Graph) (sources : ∀ d e, g.Edge d e → own d = true) (d : String)
      (outside : own d = false) : g.targets d = [] := by
    refine List.eq_nil_iff_forall_not_mem.mpr fun e edge => ?_
    simp [sources d e edge] at outside
  have graphs : Agree own g h := by
    refine ⟨fun path => ?_, leaf g sources, leaf h sources'⟩
    -- What comes next is in order, so its members determine it.
    refine List.Pairwise.eq_of_mem_iff ((g.after_ordered path).filter _)
      ((h.after_ordered path).filter _) fun e => ?_
    rw [List.mem_filter, List.mem_filter, and_congr_left_iff]
    intro inside
    rcases List.eq_nil_or_concat path with rfl | ⟨front, last, rfl⟩
    · exact defined e inside
    rw [List.concat_eq_append, after_concat, after_concat]
    cases own_last : own last with
    | true => exact edges last e own_last inside
    | false => simp [leaf g sources last own_last, leaf h sources' last own_last]
  have start : Search.Abreast own (g.definitions.filter own) g.definitions.length
      h.definitions.length {} {} := by
    refine ⟨⟨rfl, rfl, by simp, by simp⟩, ?_, ?_⟩
    · exact (List.length_filter_le _ _).trans (List.length_filter_le _ _)
    · rw [← after_nil, graphs.after []]
      exact (List.length_filter_le _ _).trans (List.length_filter_le _ _)
  have ends : Search.Abreast own (g.definitions.filter own) _ _
      ((g.after []).foldl (g.look _ []) {}) ((h.after []).foldl (h.look _ []) {}) :=
    looks_abreast graphs (fun s t d abreast => search_agrees graphs _ _ abreast) start
  rw [cycles, cycles, searchAll_eq, searchAll_eq, ends.cycles]

end DocRefs.Graph
