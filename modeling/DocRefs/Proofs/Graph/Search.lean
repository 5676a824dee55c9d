import DocRefs.Proofs.Graph.Path

/-!
# What a search has met

`Standing` says how a search stands at the end of a path with some definitions finished: what it has
visited, which cycles it has reported, and that nothing which turns off before the path is left.
`Scanning` adds how far it has come among the targets of the path's end. One look at a target keeps
it (`Scanning.look`), the search of one definition adds to what is finished (`search_completes`),
and both together give how the whole search ends (`searchAll_standing`).
-/
namespace DocRefs

/-- The edge that closes a cycle. -/
def Cycle.closing (c : Cycle) : String × String :=
  (c.members.dropLast.getLastD "", c.members.getLastD "")

namespace Graph

/-- The cycle that an edge from the end of a path back to `target` closes. -/
def loopAt (path : List String) (target : String) : Cycle :=
  ⟨path.drop (path.idxOf target) ++ [target], path.idxOf target⟩

theorem closing_loopAt {path : List String} {definition target : String}
    (member : target ∈ path ++ [definition]) :
    (loopAt (path ++ [definition]) target).closing = (definition, target) := by
  have inside : (path ++ [definition]).idxOf target ≤ path.length := by
    have bound := List.idxOf_lt_length_of_mem member
    rw [List.length_append, List.length_singleton] at bound
    omega
  simp only [Cycle.closing, loopAt, List.dropLast_concat, List.getLastD_concat,
    List.drop_append_of_le_length inside]

/-- A cycle that the first path to a definition closes with an edge from there. -/
def IsFound (g : Graph) (c : Cycle) : Prop :=
  ∃ path definition target, g.IsFirst (path ++ [definition]) ∧ g.Edge definition target ∧
    target ∈ path ++ [definition] ∧ c = loopAt (path ++ [definition]) target

/-- Every edge from a definition of the list leads further down the list or closes a cycle. -/
def Settled (g : Graph) (cycles : List Cycle) : List String → Prop
  | [] => True
  | definition :: earlier =>
    (∀ target, g.Edge definition target →
      target ∈ earlier ∨ ∃ c ∈ cycles, c.closing = (definition, target)) ∧
    g.Settled cycles earlier

theorem Settled.mono {g : Graph} {cycles more : List Cycle} (subset : cycles ⊆ more)
    {finished : List String} (settled : g.Settled cycles finished) : g.Settled more finished := by
  induction finished with
  | nil => exact settled
  | cons definition earlier ih =>
    refine ⟨fun target edge => (settled.1 target edge).imp_right ?_, ih settled.2⟩
    rintro ⟨c, member, closes⟩
    exact ⟨c, subset member, closes⟩

/-- How a search stands at the end of `path`, with `finished` searched, the last one first. -/
structure Standing (g : Graph) (path finished : List String) (s : Search) : Prop where
  isPath : g.IsPath path
  visited : ∀ d, d ∈ s.visited ↔ d ∈ path ∨ d ∈ finished
  active : ∀ d, d ∈ s.active ↔ d ∈ path
  nodup : finished.Nodup
  apart : ∀ d ∈ finished, d ∉ path
  closed : ∀ d ∈ finished, ∀ target, g.Edge d target → target ∈ s.visited
  /-- Paths that turn off before this one lead to nothing new. -/
  passed : ∀ other d, g.IsPath (other ++ [d]) → TurnsBefore (other ++ [d]) path → d ∈ s.visited
  found : ∀ c ∈ s.cycles, g.IsFound c
  reported : ∀ d ∈ finished, ∃ p, g.IsFirst (p ++ [d]) ∧
    ∀ target, g.Edge d target → target ∈ p ++ [d] → loopAt (p ++ [d]) target ∈ s.cycles
  settled : g.Settled s.cycles finished
  distinct : (s.cycles.map Cycle.closing).Nodup
  sources : ∀ c ∈ s.cycles, c.closing.1 ∈ s.visited

/-- What a search adds to what it had met: the cycles that it adds are closed by new definitions. -/
structure Extends (before s : Search) : Prop where
  visited : before.visited ⊆ s.visited
  cycles : before.cycles ⊆ s.cycles
  fresh : ∀ c ∈ s.cycles, c ∈ before.cycles ∨ c.closing.1 ∉ before.visited

theorem Extends.refl (s : Search) : Extends s s := ⟨fun _ => id, fun _ => id, fun _ => .inl⟩

theorem Extends.trans {first second third : Search} (earlier : Extends first second)
    (later : Extends second third) : Extends first third where
  visited := fun _ member => later.visited (earlier.visited member)
  cycles := fun _ member => later.cycles (earlier.cycles member)
  fresh := by
    intro c member
    rcases later.fresh c member with old | new
    · exact earlier.fresh c old
    · exact .inr fun there => new (earlier.visited there)

/-- A search among what comes after `path`, with `seen` looked at; `before` is how it was when the
search of the path's end began. -/
structure Scanning (g : Graph) (path finished seen : List String) (before s : Search) : Prop
    extends Standing g path finished s where
  first : path ≠ [] → g.IsFirst path
  /-- Nothing new is left behind what was looked at. -/
  looked : ∀ d ∈ seen, ∀ rest e, g.IsPath (path ++ d :: rest) →
    (d :: rest).getLast? = some e → e ∈ s.visited
  handled : ∀ d ∈ seen, d ∈ finished ∨ d ∈ path ∧ loopAt path d ∈ s.cycles
  own : ∀ c ∈ s.cycles, path.getLast? = some c.closing.1 → c.closing.2 ∈ seen
  grown : Extends before s
  new : ∀ d, path.getLast? = some d → d ∉ before.visited

/-- One look at what comes after a path. -/
def look (g : Graph) (steps : Nat) (path : List String) (s : Search) (target : String) : Search :=
  if s.visited.contains target then s.meet path target else g.search steps path target s

theorem search_succ (g : Graph) (steps : Nat) (path : List String) (definition : String)
    (s : Search) :
    g.search (steps + 1) path definition s =
      ((g.after (path ++ [definition])).foldl (g.look steps (path ++ [definition]))
        (s.enter definition)).leave definition := by
  rw [after_concat]
  rfl

theorem searchAll_eq (g : Graph) :
    g.searchAll = (g.after []).foldl (g.look g.definitions.length []) {} := by
  have nothing (s : Search) (target : String) : s.meet [] target = s := by
    simp [Search.meet]
  unfold searchAll look
  simp only [nothing, after_nil]

theorem meet_of_active {s : Search} {path : List String} {target : String}
    (active : target ∈ s.active) (member : target ∈ path) :
    s.meet path target = { s with cycles := loopAt path target :: s.cycles } := by
  have there : path.idxOf? target = some (path.idxOf target) := by
    have bound := List.idxOf_lt_length_of_mem member
    refine List.idxOf?_eq_some_iff.mpr ⟨bound, List.getElem_idxOf bound, fun j less same => ?_⟩
    simpa [same] using List.not_of_lt_findIdx less
  simp [Search.meet, active, there, loopAt]

theorem meet_of_not_active {s : Search} {path : List String} {target : String}
    (passive : target ∉ s.active) : s.meet path target = s := by
  simp [Search.meet, passive]

/-! ### How the state changes -/

/-- From what is finished nothing is left but along the path. -/
theorem Standing.mem_finished {g : Graph} {path finished : List String} {s : Search}
    (stands : g.Standing path finished s) {d : String} {rest : List String}
    (start : d ∈ finished) (chain : (d :: rest).IsChain g.Edge) (off : ∀ e ∈ rest, e ∉ path) :
    ∀ e ∈ d :: rest, e ∈ finished := by
  -- By induction along the chain: each edge from a finished definition leads to a visited one.
  induction rest generalizing d with
  | nil => simpa using start
  | cons next rest ih =>
    have edge : g.Edge d next := (List.isChain_cons_cons.mp chain).1
    have finished_next : next ∈ finished :=
      ((stands.visited next).mp (stands.closed d start next edge)).resolve_left
        (off next (by simp))
    intro e member
    rcases List.mem_cons.mp member with rfl | later
    · exact start
    · exact ih finished_next (List.isChain_cons_cons.mp chain).2
        (fun e there => off e (by simp [there])) e later

theorem Standing.report {g : Graph} {path finished : List String} {s : Search} {c : Cycle}
    (stands : g.Standing path finished s) (found : g.IsFound c) (source : c.closing.1 ∈ s.visited)
    (new : ∀ other ∈ s.cycles, other.closing ≠ c.closing) :
    g.Standing path finished { s with cycles := c :: s.cycles } :=
  { stands with
    found := List.forall_mem_cons.mpr ⟨found, stands.found⟩
    reported := by
      intro d member
      obtain ⟨p, first, loops⟩ := stands.reported d member
      exact ⟨p, first, fun target edge on => List.mem_cons_of_mem _ (loops target edge on)⟩
    settled := stands.settled.mono (List.subset_cons_self _ _)
    distinct := by
      refine List.nodup_cons.mpr ⟨fun member => ?_, stands.distinct⟩
      obtain ⟨other, there, same⟩ := List.mem_map.mp member
      exact new other there same
    sources := List.forall_mem_cons.mpr ⟨source, stands.sources⟩ }

/-- What the search of a definition next to a path relies on. -/
structure Ready (g : Graph) (path finished : List String) (s : Search) (d : String) : Prop where
  standing : g.Standing path finished s
  next : d ∈ g.after path
  new : d ∉ s.visited
  passed : ∀ other e, g.IsPath (other ++ [e]) → TurnsBefore (other ++ [e]) (path ++ [d]) →
    e ∈ s.visited

theorem Ready.isPath {g : Graph} {path finished : List String} {s : Search} {d : String}
    (ready : g.Ready path finished s d) : g.IsPath (path ++ [d]) :=
  isPath_concat.mpr ⟨ready.standing.isPath, ready.next,
    fun member => ready.new ((ready.standing.visited d).mpr (.inl member))⟩

/-- A definition is met first along the first path to it: whatever turns off before is searched. -/
theorem Ready.isFirst {g : Graph} {path finished : List String} {s : Search} {d : String}
    (ready : g.Ready path finished s d) : g.IsFirst (path ++ [d]) where
  isPath := ready.isPath
  first := by
    intro other walk same before
    rcases List.eq_nil_or_concat other with rfl | ⟨front, last, rfl⟩
    · simp at same
    · obtain rfl : last = d := by simpa using same
      -- Had another path to it turned off before, it would have been visited from there.
      exact ready.new (ready.passed front last (by simpa using walk) (by simpa using before))

theorem Ready.enter {g : Graph} {path finished : List String} {s : Search} {d : String}
    (ready : g.Ready path finished s d) :
    g.Scanning (path ++ [d]) finished [] s (s.enter d) where
  isPath := ready.isPath
  visited e := by
    simp only [Search.enter, List.mem_cons, ready.standing.visited, List.mem_append,
      List.not_mem_nil, or_false]
    tauto
  active e := by
    simp [Search.enter, ready.standing.active, or_comm]
  nodup := ready.standing.nodup
  apart e member on := by
    rcases List.mem_append.mp on with old | last
    · exact ready.standing.apart e member old
    · obtain rfl : e = d := by simpa using last
      exact ready.new ((ready.standing.visited e).mpr (.inr member))
  closed e member target edge :=
    List.mem_cons_of_mem _ (ready.standing.closed e member target edge)
  passed other e walk before := List.mem_cons_of_mem _ (ready.passed other e walk before)
  found := ready.standing.found
  reported := ready.standing.reported
  settled := ready.standing.settled
  distinct := ready.standing.distinct
  sources c member := List.mem_cons_of_mem _ (ready.standing.sources c member)
  first _ := ready.isFirst
  looked := by simp
  handled := by simp
  own c member last := by
    have source : d = c.closing.1 := by simpa using last
    exact absurd (source ▸ ready.standing.sources c member) ready.new
  grown := ⟨fun _ => List.mem_cons_of_mem _, fun _ => id, fun _ => .inl⟩
  new e last := by
    obtain rfl : d = e := by simpa using last
    exact ready.new

/-- One more target has been looked at. -/
theorem Scanning.advance {g : Graph} {path finished seen : List String} {d : String}
    {before s next : Search} (scan : g.Scanning path finished seen before s) (more : List String)
    (stands : g.Standing path (more ++ finished) next) (grown : Extends before next)
    (visited : s.visited ⊆ next.visited) (cycles : s.cycles ⊆ next.cycles)
    (behind : ∀ rest e, g.IsPath (path ++ d :: rest) → (d :: rest).getLast? = some e →
      e ∈ next.visited)
    (handled : d ∈ more ++ finished ∨ d ∈ path ∧ loopAt path d ∈ next.cycles)
    (own : ∀ c ∈ next.cycles, path.getLast? = some c.closing.1 →
      c ∈ s.cycles ∨ c.closing.2 = d) :
    g.Scanning path (more ++ finished) (seen ++ [d]) before next :=
  { stands with
    first := scan.first
    looked := by
      intro t member rest e walk last
      rcases List.mem_append.mp member with old | new
      · exact visited (scan.looked t old rest e walk last)
      · obtain rfl : t = d := by simpa using new
        exact behind rest e walk last
    handled := by
      intro t member
      rcases List.mem_append.mp member with old | new
      · rcases scan.handled t old with there | ⟨on, loops⟩
        · exact .inl (List.mem_append_right _ there)
        · exact .inr ⟨on, cycles loops⟩
      · obtain rfl : t = d := by simpa using new
        exact handled
    own := by
      intro c member last
      rcases own c member last with old | same
      · exact List.mem_append_left _ (scan.own c old last)
      · simp [same]
    grown := grown
    new := scan.new }

/-- A target on the path closes a cycle that has not been reported. -/
theorem Scanning.look_on_path {g : Graph} {path finished seen rest : List String} {d : String}
    {before s : Search} (scan : g.Scanning path finished seen before s)
    (targets : g.after path = seen ++ d :: rest) (on : d ∈ path) :
    g.Scanning path finished (seen ++ [d]) before (s.meet path d) := by
  rw [meet_of_active ((scan.active d).mpr on) on]
  obtain ⟨front, last, rfl⟩ : ∃ front last, path = front ++ [last] := by
    rcases List.eq_nil_or_concat path with rfl | ⟨front, last, rfl⟩
    · simp at on
    · exact ⟨front, last, by simp⟩
  have closes : (loopAt (front ++ [last]) d).closing = (last, d) := closing_loopAt on
  have edge : g.Edge last d := by
    have member : d ∈ g.after (front ++ [last]) := by simp [targets]
    simpa [Edge] using member
  -- Targets are looked at in order, so no cycle has been closed by this edge before.
  have unseen : d ∉ seen := by
    have ordered := g.after_ordered (front ++ [last])
    rw [targets] at ordered
    exact fun member => String.lt_irrefl d
      ((List.pairwise_append.mp ordered).2.2 d member d (by simp))
  refine scan.advance [] ?_ ?_ (fun _ => id) (List.subset_cons_self _ _) ?_ ?_ ?_
  · refine scan.toStanding.report ⟨front, last, d, scan.first (by simp), edge, on, rfl⟩ ?_ ?_
    · rw [closes]
      exact (scan.visited last).mpr (.inl (by simp))
    · intro other member same
      rw [closes] at same
      have seen_target := scan.own other member (by simp [same])
      rw [same] at seen_target
      exact unseen seen_target
  · refine ⟨scan.grown.visited, fun c there => List.mem_cons_of_mem _ (scan.grown.cycles there), ?_⟩
    intro c member
    rcases List.mem_cons.mp member with rfl | old
    · rw [closes]
      exact .inr (scan.new last (by simp))
    · exact scan.grown.fresh c old
  · intro more e walk
    exact absurd on walk.next.2
  · exact .inr ⟨on, List.mem_cons_self⟩
  · intro c member _
    rcases List.mem_cons.mp member with rfl | old
    · exact .inr (by rw [closes])
    · exact .inl old

/-- A target that is finished already leads to nothing new. -/
theorem Scanning.look_finished {g : Graph} {path finished seen : List String} {d : String}
    {before s : Search} (scan : g.Scanning path finished seen before s) (there : d ∈ finished) :
    g.Scanning path finished (seen ++ [d]) before (s.meet path d) := by
  have off : d ∉ s.active := fun active =>
    scan.apart d there ((scan.active d).mp active)
  rw [meet_of_not_active off]
  refine scan.advance [] scan.toStanding scan.grown (fun _ => id) (fun _ => id) ?_
    (.inl there) (fun c member _ => .inl member)
  intro rest e walk last
  -- A path that goes on through `d` stays off what it has passed, so it stays among the finished.
  have chain : (d :: rest).IsChain g.Edge := walk.chain.right_of_append
  have behind := scan.toStanding.mem_finished there chain fun other member on =>
    (List.nodup_append.mp walk.nodup).2.2 other on other (by simp [member]) rfl
  exact (scan.visited e).mpr (.inr (behind e (List.mem_of_getLast? last)))

/-- When all targets have been looked at, the search of a definition ends. -/
theorem Scanning.leave {g : Graph} {path finished : List String} {d : String} {before s : Search}
    (scan : g.Scanning (path ++ [d]) finished (g.targets d) before s) :
    g.Standing path (d :: finished) (s.leave d) := by
  have fresh : d ∉ path := (isPath_concat.mp scan.isPath).2.2
  have unfinished : d ∉ finished := fun there => scan.apart d there (by simp)
  have closing {t : String} (on : t ∈ path ++ [d]) : (loopAt (path ++ [d]) t).closing = (d, t) :=
    closing_loopAt on
  constructor
  case isPath => exact scan.isPath.of_append
  case visited =>
    intro e
    simp only [Search.leave, scan.visited, List.mem_append, List.mem_cons, List.not_mem_nil,
      or_false]
    tauto
  case active =>
    intro e
    simp only [Search.leave, List.mem_filter, scan.active, List.mem_append, List.mem_singleton,
      decide_eq_true_eq]
    constructor
    · rintro ⟨on | same, other⟩
      · exact on
      · exact absurd same other
    · exact fun on => ⟨.inl on, fun same => fresh (same ▸ on)⟩
  case nodup => exact List.nodup_cons.mpr ⟨unfinished, scan.nodup⟩
  case apart =>
    refine List.forall_mem_cons.mpr ⟨fresh, fun e there on => ?_⟩
    exact scan.apart e there (List.mem_append_left _ on)
  case closed =>
    -- All targets of `d` are handled by now: each is finished or on the path.
    refine List.forall_mem_cons.mpr ⟨fun target edge => ?_, scan.closed⟩
    rcases scan.handled target edge with there | ⟨on, _⟩
    · exact (scan.visited target).mpr (.inr there)
    · exact (scan.visited target).mpr (.inl on)
  case passed => exact fun other e walk turns => scan.passed other e walk (turns.append [d])
  case found => exact scan.found
  case reported =>
    refine List.forall_mem_cons.mpr ⟨⟨path, scan.first (by simp), ?_⟩, scan.reported⟩
    intro target edge on
    exact ((scan.handled target edge).resolve_left fun there => scan.apart target there on).2
  case settled =>
    refine ⟨fun target edge => ?_, scan.settled⟩
    rcases scan.handled target edge with there | ⟨on, loops⟩
    · exact .inl there
    · exact .inr ⟨_, loops, closing on⟩
  case distinct => exact scan.distinct
  case sources => exact scan.sources

/-- What the search of a definition next to a path achieves. -/
structure Completes (g : Graph) (path finished : List String) (s : Search) (d : String)
    (more : List String) (next : Search) : Prop where
  standing : g.Standing path (more ++ finished) next
  member : d ∈ more
  grown : Extends s next
  behind : ∀ rest e, g.IsPath (path ++ d :: rest) → (d :: rest).getLast? = some e →
    e ∈ next.visited

/-- One look keeps the invariant, if a search of what is new completes. -/
theorem Scanning.look {g : Graph} {path finished seen rest : List String} {d : String}
    {steps : Nat} {before s : Search}
    (searches : ∀ finished s, g.Ready path finished s d →
      ∃ more, g.Completes path finished s d more (g.search steps path d s))
    (scan : g.Scanning path finished seen before s) (targets : g.after path = seen ++ d :: rest) :
    ∃ more, g.Scanning path (more ++ finished) (seen ++ [d]) before (g.look steps path s d) := by
  unfold Graph.look
  split
  next met =>
    have met : d ∈ s.visited := by simpa using met
    rcases (scan.visited d).mp met with on | there
    · exact ⟨[], scan.look_on_path targets on⟩
    · exact ⟨[], scan.look_finished there⟩
  next unmet =>
    have new : d ∉ s.visited := by simpa using unmet
    have next : d ∈ g.after path := by simp [targets]
    have passed : ∀ other e, g.IsPath (other ++ [e]) → TurnsBefore (other ++ [e]) (path ++ [d]) →
        e ∈ s.visited := by
      intro other e walk turns
      rcases turnsBefore_concat turns with inside | ⟨a, tail, less, same⟩
      · exact scan.passed other e walk inside
      · -- What comes next on the path and is smaller has been looked at before `d`.
        rw [same] at walk
        have member : a ∈ seen ++ d :: rest := targets ▸ walk.next.1
        have ordered := g.after_ordered path
        rw [targets] at ordered
        have seen_before : a ∈ seen := by
          rcases List.mem_append.mp member with old | later
          · exact old
          · rcases List.mem_cons.mp later with rfl | later
            · exact absurd less (String.lt_irrefl a)
            · have behind := (List.pairwise_cons.mp (List.pairwise_append.mp ordered).2.1).1
              exact absurd (String.lt_trans less (behind a later)) (String.lt_irrefl a)
        refine scan.looked a seen_before tail e walk ?_
        have last : (path ++ a :: tail).getLast? = some e := by rw [← same]; simp
        simpa using last
    obtain ⟨more, done⟩ := searches finished s ⟨scan.toStanding, next, new, passed⟩
    refine ⟨more, scan.advance more done.standing (scan.grown.trans done.grown)
      done.grown.visited done.grown.cycles done.behind
      (.inl (List.mem_append_left _ done.member)) ?_⟩
    intro c member last
    rcases done.grown.fresh c member with old | fresh
    · exact .inl old
    · have on : c.closing.1 ∈ path := List.mem_of_getLast? last
      exact absurd ((scan.visited _).mpr (.inl on)) fresh

theorem Scanning.looks {g : Graph} {path : List String} {steps : Nat} {before : Search}
    (searches : ∀ finished s d, g.Ready path finished s d →
      ∃ more, g.Completes path finished s d more (g.search steps path d s))
    {finished seen rest : List String} {s : Search}
    (scan : g.Scanning path finished seen before s) (targets : g.after path = seen ++ rest) :
    ∃ more, g.Scanning path (more ++ finished) (g.after path) before
      (rest.foldl (g.look steps path) s) := by
  induction rest generalizing finished seen s with
  | nil => exact ⟨[], by simpa [targets] using scan⟩
  | cons d rest ih =>
    obtain ⟨more, looked⟩ :=
      scan.look (fun finished s => searches finished s d) targets
    obtain ⟨most, all⟩ := ih looked (by simp [targets])
    exact ⟨most ++ more, by simpa using all⟩

/-- The search of a definition completes within as many steps as definitions are off the path. -/
theorem search_completes (g : Graph) (steps : Nat) {path finished : List String} {s : Search}
    {d : String} (ready : g.Ready path finished s d)
    (enough : g.definitions.length ≤ path.length + steps) :
    ∃ more, g.Completes path finished s d more (g.search steps path d s) := by
  induction steps generalizing path finished s d with
  | zero =>
    -- No path is longer than the list of definitions, so there is always a step left.
    have short := ready.isPath.length_le
    rw [List.length_append, List.length_singleton] at short
    omega
  | succ steps ih =>
    have searches : ∀ finished s t, g.Ready (path ++ [d]) finished s t →
        ∃ more, g.Completes (path ++ [d]) finished s t more (g.search steps (path ++ [d]) t s) :=
      fun finished s t inner => ih inner (by rw [List.length_append, List.length_singleton]; omega)
    obtain ⟨more, scan⟩ := ready.enter.looks searches (List.nil_append _).symm
    rw [search_succ]
    rw [after_concat] at scan ⊢
    have grown := scan.grown
    refine ⟨d :: more, scan.leave, by simp, ⟨grown.visited, grown.cycles, grown.fresh⟩,
      fun rest e walk last => ?_⟩
    -- What lies behind `d` lies behind one of its targets, all of which have been looked at.
    cases rest with
    | nil =>
      obtain rfl : d = e := by simpa using last
      exact (scan.visited d).mpr (.inl (by simp))
    | cons t rest =>
      have walk : g.IsPath ((path ++ [d]) ++ t :: rest) := by simpa using walk
      have next : t ∈ g.targets d := by simpa using walk.next.1
      exact scan.looked t next rest e walk (by simpa using last)

/-- When the whole search ends, every definition is finished. -/
theorem searchAll_standing (g : Graph) :
    ∃ finished, g.Standing [] finished g.searchAll ∧ ∀ d ∈ g.definitions, d ∈ finished := by
  have nothing : ∀ other, ¬ TurnsBefore other [] := by
    rintro other ⟨shared, a, b, rest, more, _, _, same⟩
    simp at same
  have start : g.Scanning [] [] [] {} {} := {
    isPath := g.isPath_nil
    visited := by simp
    active := by simp
    nodup := List.nodup_nil
    apart := by simp
    closed := by simp
    passed := fun other d _ turns => absurd turns (nothing _)
    found := by simp
    reported := by simp
    settled := trivial
    distinct := by simp
    sources := by simp
    first := by simp
    looked := by simp
    handled := by simp
    own := by simp
    grown := Extends.refl _
    new := by simp }
  obtain ⟨finished, scan⟩ := start.looks
    (fun finished s d ready => search_completes g g.definitions.length ready (by simp))
    (List.nil_append _).symm
  rw [← searchAll_eq] at scan
  refine ⟨finished, by simpa using scan.toStanding, fun d member => ?_⟩
  simpa using scan.handled d member

end Graph

end DocRefs
