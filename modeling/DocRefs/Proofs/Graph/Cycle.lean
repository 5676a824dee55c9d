import DocRefs.Proofs.Graph.Search
import Mathlib.Data.List.Nodup
import Mathlib.Logic.Relation

/-!
# The cycles that a search reports

Main results:

- `mem_cycles_iff`: a cycle is reported exactly if the first path to some definition closes it.
- `cycles_genuine_and_break_all`: every reported cycle is one of the graph, no two are closed by the
  same edge, and the graph without the closing edges has no cycle.
- `mem_reported_iff`: a definition is on a reported cycle exactly if it is on a first path, at or
  behind the target of an edge from the path's end.

A definition on a cycle need not be on a reported one: a second cycle through a definition that is
searched already closes nowhere.
-/
namespace DocRefs.Graph

open Relation

/-- The members go around a directed cycle and meet no definition twice on the way. -/
structure IsCycle (g : Graph) (c : Cycle) : Prop where
  long : 2 ≤ c.members.length
  closed : c.members.head? = c.members.getLast?
  nodup : c.members.dropLast.Nodup
  chain : c.members.IsChain g.Edge

theorem mem_cycles_iff (g : Graph) (c : Cycle) : c ∈ g.cycles ↔ g.IsFound c := by
  obtain ⟨finished, stands, all⟩ := g.searchAll_standing
  rw [cycles, List.mem_reverse]
  constructor
  · exact stands.found c
  · rintro ⟨path, definition, target, first, edge, on, rfl⟩
    obtain ⟨other, also, loops⟩ := stands.reported definition (all _ (source_defined edge))
    -- The definition was finished at the end of a first path, and there is only one.
    obtain rfl := also.unique first
    exact loops target edge on

/-- The part of a path from `target` on begins with `target`. -/
theorem head?_drop_idxOf {path : List String} {target : String} (on : target ∈ path) :
    (path.drop (path.idxOf target)).head? = some target := by
  rw [List.head?_drop, List.getElem?_eq_getElem (List.idxOf_lt_length_of_mem on)]
  exact congrArg some (List.getElem_idxOf _)

theorem IsFound.isCycle {g : Graph} {c : Cycle} (found : g.IsFound c) : g.IsCycle c := by
  obtain ⟨path, definition, target, first, edge, on, rfl⟩ := found
  have head := head?_drop_idxOf on
  obtain ⟨rest, from_target⟩ : ∃ rest,
      (path ++ [definition]).drop ((path ++ [definition]).idxOf target) = target :: rest :=
    List.head?_eq_some_iff.mp head
  have last : (target :: rest).getLast? = some definition := by
    have bound := List.idxOf_lt_length_of_mem on
    rw [← from_target, List.getLast?_drop, if_neg (Nat.not_le.mpr bound)]
    simp
  have chain := first.isPath.chain.drop ((path ++ [definition]).idxOf target)
  have nodup := first.isPath.nodup.sublist
    (List.drop_sublist ((path ++ [definition]).idxOf target) _)
  rw [from_target] at chain nodup
  constructor <;> simp only [loopAt, from_target]
  case long => simp
  case closed => rw [List.getLast?_concat]; rfl
  case nodup => rwa [List.dropLast_concat]
  case chain =>
    refine List.isChain_append.mpr ⟨chain, by simp, fun source there next same => ?_⟩
    obtain rfl : definition = source := Option.some.inj (last.symm.trans there)
    obtain rfl : target = next := by simpa using same
    exact edge

theorem transGen_of_isChain {R : String → String → Prop} {first last : String}
    {between : List String} (chain : (first :: (between ++ [last])).IsChain R) :
    TransGen R first last := by
  induction between generalizing first with
  | nil => exact .single (List.isChain_cons_cons.mp chain).1
  | cons next between ih =>
    obtain ⟨edge, later⟩ := List.isChain_cons_cons.mp chain
    exact .head edge (ih later)

/-- A cycle comes back to the definition that it begins with. -/
theorem IsCycle.members_eq {g : Graph} {c : Cycle} (cycle : g.IsCycle c) :
    ∃ first between, c.members = first :: (between ++ [first]) := by
  obtain ⟨members, depth⟩ := c
  match members, cycle with
  | first :: second :: rest, cycle =>
    obtain ⟨between, last, split⟩ : ∃ between last, second :: rest = between ++ [last] := by
      rcases List.eq_nil_or_concat (second :: rest) with empty | ⟨between, last, same⟩
      · simp at empty
      · exact ⟨between, last, by simpa using same⟩
    have closed := cycle.closed
    rw [split] at closed
    obtain rfl : first = last := by
      rw [← List.cons_append, List.getLast?_concat] at closed
      simpa using closed
    exact ⟨first, between, congrArg _ split⟩
  | [_], cycle => exact absurd cycle.long (by simp)
  | [], cycle => exact absurd cycle.long (by simp)

/-- From every member the cycle leads around and back. -/
theorem IsCycle.transGen_of_mem {g : Graph} {c : Cycle} (cycle : g.IsCycle c) {d : String}
    (member : d ∈ c.members) : TransGen g.Edge d d := by
  obtain ⟨first, between, same⟩ := cycle.members_eq
  have chain := cycle.chain
  rw [same] at chain member
  by_cases begins : d = first
  · rw [begins]
    exact transGen_of_isChain chain
  · obtain ⟨front, back, split⟩ : ∃ front back, between = front ++ d :: back :=
      List.append_of_mem (by simpa [begins] using member)
    rw [split, List.append_assoc, List.cons_append, ← List.cons_append] at chain
    obtain ⟨before, behind⟩ := List.isChain_split.mp chain
    exact (transGen_of_isChain behind).trans (transGen_of_isChain before)

theorem IsCycle.transGen {g : Graph} {c : Cycle} (cycle : g.IsCycle c) :
    ∃ d, TransGen g.Edge d d := by
  obtain ⟨first, between, same⟩ := cycle.members_eq
  exact ⟨first, cycle.transGen_of_mem (same ▸ List.mem_cons_self)⟩

/-! ### The graph without closing edges -/

/-- An edge that closes none of the reported cycles. -/
def OpenEdge (g : Graph) (source target : String) : Prop :=
  g.Edge source target ∧ (source, target) ∉ g.cycles.map Cycle.closing

/-- Open edges lead from what is finished to what was finished earlier. -/
theorem Settled.earlier {g : Graph} {d target : String} {finished : List String}
    (settled : g.Settled g.cycles (d :: finished)) (isOpen : g.OpenEdge d target) :
    target ∈ finished := by
  rcases settled.1 target isOpen.1 with earlier | ⟨c, member, closes⟩
  · exact earlier
  · exact absurd (List.mem_map.mpr ⟨c, member, closes⟩) isOpen.2

theorem Settled.mem_of_openEdge {g : Graph} {finished : List String}
    (settled : g.Settled g.cycles finished) {d target : String} (member : d ∈ finished)
    (isOpen : g.OpenEdge d target) : target ∈ finished := by
  induction finished with
  | nil => simp at member
  | cons first finished ih =>
    rcases List.mem_cons.mp member with rfl | later
    · exact List.mem_cons_of_mem _ (settled.earlier isOpen)
    · exact List.mem_cons_of_mem _ (ih settled.2 later)

theorem Settled.mem_of_reflTransGen {g : Graph} {finished : List String}
    (settled : g.Settled g.cycles finished) {d e : String} (member : d ∈ finished)
    (reach : ReflTransGen g.OpenEdge d e) : e ∈ finished := by
  induction reach with
  | refl => exact member
  | tail _ isOpen ih => exact settled.mem_of_openEdge ih isOpen

/-- A cycle of open edges would lead from what was finished first on it to something earlier. -/
theorem Settled.acyclic {g : Graph} {finished : List String}
    (settled : g.Settled g.cycles finished) (nodup : finished.Nodup) :
    ∀ d ∈ finished, ¬ TransGen g.OpenEdge d d := by
  induction finished with
  | nil => simp
  | cons first finished ih =>
    obtain ⟨fresh, nodup⟩ := List.nodup_cons.mp nodup
    refine List.forall_mem_cons.mpr ⟨fun around => fresh ?_, ih settled.2 nodup⟩
    -- An open edge leads to something earlier, and no open edge leads back from there.
    obtain ⟨next, isOpen, back⟩ := TransGen.head'_iff.mp around
    exact settled.2.mem_of_reflTransGen (settled.earlier isOpen) back

theorem acyclic_openEdge (g : Graph) (d : String) : ¬ TransGen g.OpenEdge d d := by
  obtain ⟨finished, stands, all⟩ := g.searchAll_standing
  have settled : g.Settled g.cycles finished :=
    stands.settled.mono fun c member => List.mem_reverse.mpr member
  intro around
  obtain ⟨next, isOpen, _⟩ := TransGen.head'_iff.mp around
  exact settled.acyclic stands.nodup d (all d (source_defined isOpen.1)) around

/-- Some edge around every cycle closes a reported one. -/
theorem closing_of_isChain {g : Graph} {first : String} {between : List String}
    (chain : (first :: (between ++ [first])).IsChain g.Edge) :
    ∃ c ∈ g.cycles, c.closing.1 ∈ first :: between := by
  by_contra none_closes
  suffices opened : (first :: (between ++ [first])).IsChain g.OpenEdge from
    g.acyclic_openEdge first (transGen_of_isChain opened)
  refine chain.imp_of_mem_imp fun source target there _ edge => ⟨edge, fun member => ?_⟩
  obtain ⟨c, reported, closes⟩ := List.mem_map.mp member
  refine none_closes ⟨c, reported, ?_⟩
  rw [closes]
  simpa [or_comm, or_assoc] using there

/-- Reported cycles are cycles of the graph, each closed by an edge of its own, and there is none
without the closing edges. So nothing is reported exactly for a graph without cycles. -/
theorem cycles_genuine_and_break_all (g : Graph) :
    (∀ c ∈ g.cycles, g.IsCycle c) ∧ (g.cycles.map Cycle.closing).Nodup ∧
      (∀ d, ¬ TransGen g.OpenEdge d d) ∧
      (g.cycles = [] ↔ ∀ d, ¬ TransGen g.Edge d d) := by
  have genuine : ∀ c ∈ g.cycles, g.IsCycle c := fun c member =>
    ((g.mem_cycles_iff c).mp member).isCycle
  refine ⟨genuine, ?_, g.acyclic_openEdge, ?_⟩
  · obtain ⟨finished, stands, _⟩ := g.searchAll_standing
    rw [cycles, List.map_reverse]
    exact List.nodup_reverse.mpr stands.distinct
  · constructor
    · intro empty d around
      have all_open : g.Edge ≤ g.OpenEdge := fun source target edge => ⟨edge, by simp [empty]⟩
      exact g.acyclic_openEdge d (TransGen.mono all_open d d around)
    · intro acyclic
      refine List.eq_nil_iff_forall_not_mem.mpr fun c member => ?_
      obtain ⟨d, around⟩ := (genuine c member).transGen
      exact acyclic d around

/-! ### Which definitions are reported -/

/-- The definition is on the first path to some source, at or behind the target of an edge from that
source. -/
def OnFirstLoop (g : Graph) (definition : String) : Prop :=
  ∃ path source target, g.IsFirst (path ++ [source]) ∧ g.Edge source target ∧
    target ∈ path ++ [source] ∧
    definition ∈ (path ++ [source]).drop ((path ++ [source]).idxOf target)

theorem mem_reported_iff (g : Graph) (definition : String) :
    (∃ c ∈ g.cycles, definition ∈ c.members) ↔ g.OnFirstLoop definition := by
  constructor
  · rintro ⟨c, reported, member⟩
    obtain ⟨path, source, target, first, edge, on, rfl⟩ := (g.mem_cycles_iff c).mp reported
    refine ⟨path, source, target, first, edge, on, ?_⟩
    rcases List.mem_append.mp member with inside | again
    · exact inside
    · obtain rfl : definition = target := by simpa using again
      exact List.mem_of_mem_head? (head?_drop_idxOf on)
  · rintro ⟨path, source, target, first, edge, on, inside⟩
    exact ⟨_, (g.mem_cycles_iff _).mpr ⟨path, source, target, first, edge, on, rfl⟩,
      List.mem_append_left _ inside⟩

theorem exists_rel_of_isChain {R : String → String → Prop} {front : List String}
    {last d : String} (chain : (front ++ [last]).IsChain R) (member : d ∈ front) : ∃ e, R d e := by
  induction front with
  | nil => simp at member
  | cons first front ih =>
    rcases List.mem_cons.mp member with rfl | later
    · cases front with
      | nil => exact ⟨last, (List.isChain_cons_cons.mp chain).1⟩
      | cons next front => exact ⟨next, (List.isChain_cons_cons.mp chain).1⟩
    · exact ih chain.tail later

theorem OnFirstLoop.edge {g : Graph} {definition : String} (on : g.OnFirstLoop definition) :
    ∃ target, g.Edge definition target := by
  obtain ⟨path, source, target, first, edge, _, inside⟩ := on
  rcases List.mem_append.mp (List.mem_of_mem_drop inside) with early | last
  · exact exists_rel_of_isChain first.isPath.chain early
  · obtain rfl : definition = source := by simpa using last
    exact ⟨target, edge⟩

theorem closing_mem_members {g : Graph} {c : Cycle} (reported : c ∈ g.cycles) :
    c.closing.1 ∈ c.members := by
  obtain ⟨path, source, target, first, edge, on, rfl⟩ := (g.mem_cycles_iff c).mp reported
  have bound := List.idxOf_lt_length_of_mem on
  rw [closing_loopAt on]
  refine List.mem_append_left _ (List.mem_of_getLast? ?_)
  rw [List.getLast?_drop, if_neg (Nat.not_le.mpr bound)]
  simp

end DocRefs.Graph
