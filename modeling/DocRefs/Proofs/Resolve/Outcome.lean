import DocRefs.Proofs.Index.Registered
import DocRefs.Proofs.Resolve.Chain
import DocRefs.Proofs.Resolve.Route

/-!
# Outcomes of walks across documents

Main result: `locate_outcome`. Where no registered document has a finding and no pointer on the way
is left to a search, a location and a chase have the outcome that the route of a reference says: its
end, the first text that is empty, the first pointer that leads nowhere, or too many hops. A
location walks along the route (`locateWithin_after`), so only the last hop has to be looked at.
-/
namespace DocRefs

namespace Stand

variable {registry : Registry} {s : Stand} {l : Located} {written : Node}

/-! ### Outcomes -/

/-- Within the hops of a walk the route reaches a place that is no reference. -/
def Arrives (registry : Registry) (s : Stand) (l : Located) : Prop :=
  ∃ route, Route registry s (route ++ [l]) ∧ route.length < maxHops ∧ l.node.isRef = false

/-- Within the hops of a walk the route comes to a reference without text. -/
def RunsBlank (registry : Registry) (s : Stand) (written : Node) : Prop :=
  ∃ route, Route registry s route ∧ route.length < maxHops ∧
    (s.after route).written? = some written ∧ written.text.isEmpty = true

/-- Within the hops of a walk the route comes to a reference that leads nowhere. -/
def GetsLost (registry : Registry) (s : Stand) (written : Node) : Prop :=
  ∃ route, Route registry s route ∧ route.length < maxHops ∧
    (s.after route).written? = some written ∧ written.text.isEmpty = false ∧
    (s.after route).next? registry = none

end Stand

/-! ### Along the route -/

section Unflagged

variable {registry : Registry} {s : Stand} {l : Located} {written : Node} {route : List Located}

/-- All places on the way to a reference are references. -/
theorem Route.isRef (walk : Route registry s route)
    (reference : (s.after route).node.isRef = true) : ∀ h ∈ route, h.node.isRef = true := by
  induction walk with
  | stay s => simp
  | @hop s h rest next later ih =>
    rw [Stand.after_cons] at reference
    refine List.forall_mem_cons.mpr ⟨?_, ih reference⟩
    cases later with
    | stay => exact reference
    | hop second _ => exact Stand.isRef_of_next? second

theorem locateWithin_after (hops : Nat) (home : registry.Holds s.index)
    (unflagged : ∀ ix, registry.Holds ix → ix.findings = []) (walk : Route registry s route)
    (reference : (s.after route).node.isRef = true) :
    locateWithin registry (hops + route.length) s.node s.index s.context =
      locateWithin registry hops (s.after route).node (s.after route).index
        (s.after route).context := by
  refine locateWithin_route hops walk fun h member => ⟨walk.isRef reference h member, ?_⟩
  exact Index.findingFor?_eq_none (unflagged h.index (walk.holds home h member)) h.node

/-- With a hop left at the end of the route, what that hop does decides. -/
theorem locate_after (home : registry.Holds s.index)
    (unflagged : ∀ ix, registry.Holds ix → ix.findings = []) (walk : Route registry s route)
    (short : route.length < maxHops) (reference : (s.after route).node.isRef = true) :
    ∃ hops, locate registry s.node s.index s.context =
      locateWithin registry (hops + 1) (s.after route).node (s.after route).index
        (s.after route).context := by
  obtain ⟨hops, budget⟩ := Nat.exists_eq_add_of_lt short
  refine ⟨hops, ?_⟩
  rw [← locateWithin_after (hops + 1) home unflagged walk reference, locate, budget]
  congr 1
  omega

theorem locate_of_arrives (home : registry.Holds s.index)
    (unflagged : ∀ ix, registry.Holds ix → ix.findings = []) (arrives : s.Arrives registry l) :
    locate registry s.node s.index s.context = .ok (some l) := by
  obtain ⟨route, walk, short, plain⟩ := arrives
  obtain ⟨before, last⟩ := walk.split
  have reference := Stand.isRef_of_next? last.head
  obtain ⟨written, reads⟩ := Stand.exists_written reference
  obtain ⟨hops, same⟩ := locate_after home unflagged before short reference
  rw [same, locateWithin_of_rest hops reads (Stand.hop_of_plain last.head plain reads)]

theorem locate_of_runsBlank (home : registry.Holds s.index)
    (unflagged : ∀ ix, registry.Holds ix → ix.findings = [])
    (blank : s.RunsBlank registry written) :
    locate registry s.node s.index s.context = .error (.emptyReference written.position) := by
  obtain ⟨route, walk, short, reads, empty⟩ := blank
  have reference : (s.after route).node.isRef = true := by rw [← Stand.written?_isSome, reads]; rfl
  obtain ⟨hops, same⟩ := locate_after home unflagged walk short reference
  rw [same, locateWithin_of_error hops reads (Stand.hop_of_blank empty)]

theorem locate_of_getsLost (home : registry.Holds s.index)
    (unflagged : ∀ ix, registry.Holds ix → ix.findings = [])
    (settled : ∀ route, Route registry s route → (s.after route).next? registry = none →
      (s.after route).searched? = none)
    (lost : s.GetsLost registry written) :
    locate registry s.node s.index s.context =
      .error (.notFound written.text written.position) := by
  obtain ⟨route, walk, short, reads, text, unknown⟩ := lost
  have reference : (s.after route).node.isRef = true := by rw [← Stand.written?_isSome, reads]; rfl
  have nothing := settled route walk unknown
  obtain ⟨hops, same⟩ := locate_after home unflagged walk short reference
  rw [same, locateWithin_of_error hops reads (Stand.hop_of_lost unknown nothing reads text)]

theorem locate_of_long (home : registry.Holds s.index)
    (unflagged : ∀ ix, registry.Holds ix → ix.findings = []) (walk : Route registry s route)
    (long : route.length = maxHops) (reference : (s.after route).node.isRef = true) :
    locate registry s.node s.index s.context = .error .depthExceeded := by
  have stops := locateWithin_after 0 home unflagged walk reference
  rw [Nat.zero_add, long] at stops
  rw [locate, stops]
  simp [locateWithin, reference]

/-- A walk that neither arrives nor breaks off uses up its hops. -/
theorem exists_long_route (reference : s.node.isRef = true)
    (going : ∀ l, ¬ s.Arrives registry l) (written : ∀ w, ¬ s.RunsBlank registry w)
    (known : ∀ w, ¬ s.GetsLost registry w) (count : Nat) (le : count ≤ maxHops) :
    ∃ route, Route registry s route ∧ route.length = count ∧
      (s.after route).node.isRef = true := by
  induction count with
  | zero => exact ⟨[], .stay s, rfl, reference⟩
  | succ count ih =>
    obtain ⟨route, walk, rfl, here⟩ := ih (Nat.le_of_succ_le le)
    obtain ⟨w, reads⟩ := Stand.exists_written here
    have text : w.text.isEmpty = false := by
      by_contra empty
      exact written w ⟨route, walk, le, reads, by simpa using empty⟩
    cases next : (s.after route).next? registry with
    | none => exact absurd ⟨route, walk, le, reads, text, next⟩ (known w)
    | some l =>
      have onward : l.node.isRef = true := by
        by_contra plain
        exact going l ⟨route, walk.concat next, le, by simpa using plain⟩
      exact ⟨route ++ [l], walk.concat next, by simp, by simpa using onward⟩

end Unflagged

/-! ### Chases -/

theorem chase_of_locate_error {registry : Registry} {n : Node} {ix : Index} {context : Context}
    {e : RefError} (fails : locate registry n ix context = .error e) :
    chase registry n ix context 0 = .error e := by
  have fails : locateWithin registry (99 + 1) n ix context = .error e := fails
  rw [chase, show maxHops - 0 = 99 + 1 from rfl, Index.chaseWithin_succ, fails,
    Index.error_chaseOn]

theorem chase_of_locate_rest {registry : Registry} {n : Node} {ix : Index} {context : Context}
    {l : Located} (found : locate registry n ix context = .ok (some l))
    (rest : (l.onCycle || !l.node.isRef) = true) :
    chase registry n ix context 0 = .ok (some l) := by
  have found : locateWithin registry (99 + 1) n ix context = .ok (some l) := found
  rw [chase, show maxHops - 0 = 99 + 1 from rfl, Index.chaseWithin_succ, found,
    Index.ok_chaseOn, Index.chaseOn, if_pos rest]

/-- In a registry without findings, when every pointer on the way is known to the tables or leads
nowhere at all, a reference in a registered document has one of four outcomes, for a location as for
a chase: the first place on its route that is no reference, if that is at most `maxHops` hops away;
the failure of the first hop without text or target, if that is no further; and too many hops in
every other case, so also on an endless route. -/
theorem locate_outcome (registry : Registry) (ix : Index) (n : Node) (home : registry.Holds ix)
    (unflagged : ∀ other, registry.Holds other → other.findings = []) (reference : n.isRef = true)
    (settled : ∀ route, Route registry ⟨n, ix, {}⟩ route →
      ((Stand.mk n ix {}).after route).next? registry = none →
        ((Stand.mk n ix {}).after route).searched? = none) :
    let s : Stand := ⟨n, ix, {}⟩
    chase registry n ix {} 0 = locate registry n ix {} ∧
      (∀ l, s.Arrives registry l → locate registry n ix {} = .ok (some l)) ∧
      (∀ w, s.GetsLost registry w →
        locate registry n ix {} = .error (.notFound w.text w.position)) ∧
      (∀ w, s.RunsBlank registry w →
        locate registry n ix {} = .error (.emptyReference w.position)) ∧
      ((∀ l, ¬ s.Arrives registry l) → (∀ w, ¬ s.GetsLost registry w) →
        (∀ w, ¬ s.RunsBlank registry w) → locate registry n ix {} = .error .depthExceeded) ∧
      ((∀ count, ∃ route, Route registry s route ∧ route.length = count) →
        locate registry n ix {} = .error .depthExceeded) := by
  intro s
  have arriving (l : Located) (arrives : s.Arrives registry l) :
      locate registry n ix {} = .ok (some l) := locate_of_arrives home unflagged arrives
  have losing (w : Node) (lost : s.GetsLost registry w) :
      locate registry n ix {} = .error (.notFound w.text w.position) :=
    locate_of_getsLost home unflagged settled lost
  have blanking (w : Node) (blank : s.RunsBlank registry w) :
      locate registry n ix {} = .error (.emptyReference w.position) :=
    locate_of_runsBlank home unflagged blank
  have exceeding (going : ∀ l, ¬ s.Arrives registry l) (known : ∀ w, ¬ s.GetsLost registry w)
      (written : ∀ w, ¬ s.RunsBlank registry w) :
      locate registry n ix {} = .error .depthExceeded := by
    obtain ⟨route, walk, long, onward⟩ :=
      exists_long_route reference going written known maxHops (Nat.le_refl _)
    exact locate_of_long home unflagged walk long onward
  refine ⟨?_, arriving, losing, blanking, exceeding, fun endless => ?_⟩
  · by_cases arrives : ∃ l, s.Arrives registry l
    · obtain ⟨l, arrives⟩ := arrives
      have found := arriving l arrives
      obtain ⟨_, _, _, plain⟩ := arrives
      rw [found, chase_of_locate_rest found (by simp [plain])]
    by_cases lost : ∃ w, s.GetsLost registry w
    · obtain ⟨w, lost⟩ := lost
      rw [losing w lost, chase_of_locate_error (losing w lost)]
    by_cases blank : ∃ w, s.RunsBlank registry w
    · obtain ⟨w, blank⟩ := blank
      rw [blanking w blank, chase_of_locate_error (blanking w blank)]
    have deep := exceeding (not_exists.mp arrives) (not_exists.mp lost) (not_exists.mp blank)
    rw [deep, chase_of_locate_error deep]
  · obtain ⟨route, walk, long⟩ := endless (maxHops + 1)
    -- What is in front of the last hop comes to a reference.
    rcases List.eq_nil_or_concat' route with rfl | ⟨front, l, rfl⟩
    · simp at long
    · obtain ⟨walk, last⟩ := walk.split
      exact locate_of_long home unflagged walk (by simpa using long)
        (Stand.isRef_of_next? last.head)

/-! ### Computed routes -/

/-- The route from a stand, as far as so many hops go. -/
def Stand.route (registry : Registry) : Nat → Stand → List Located
  | 0, _ => []
  | hops + 1, s =>
    match s.next? registry with
    | none => []
    | some l => l :: route registry hops l.stand

theorem Stand.walk_route (registry : Registry) (hops : Nat) (s : Stand) :
    Route registry s (s.route registry hops) := by
  induction hops generalizing s with
  | zero => exact .stay s
  | succ hops ih =>
    unfold route
    split
    · exact .stay s
    next l next => exact .hop next (ih l.stand)

theorem Route.eq_route {registry : Registry} {s : Stand} {route : List Located}
    (walk : Route registry s route) : s.route registry route.length = route := by
  induction walk with
  | stay s => rfl
  | hop next later ih => simp [Stand.route, next, ih]

/-- If the computed route ends, nothing lies behind it that could be left to a search. -/
theorem settled_of_route (registry : Registry) (s : Stand) (hops : Nat)
    (ends : (s.route registry (hops + 1)).length ≤ hops)
    (known : ∀ count ≤ hops,
      ((s.after (s.route registry count)).next? registry).isSome = true ∨
        (s.after (s.route registry count)).searched?.isNone = true)
    (route : List Located) (walk : Route registry s route)
    (unknown : (s.after route).next? registry = none) : (s.after route).searched? = none := by
  have short : route.length ≤ hops := by
    by_contra long
    -- A longer route would begin with one of `hops + 1` hops.
    have split := List.take_append_drop (hops + 1) route
    rw [← split] at walk
    have front := walk.split.1.eq_route
    have length : (route.take (hops + 1)).length = hops + 1 := by simp; omega
    rw [length] at front
    rw [front] at ends
    omega
  have here := known route.length short
  rw [walk.eq_route, unknown] at here
  simpa using here

theorem Registry.findings_of_holds (registry : Registry)
    (clear : registry.documents.entries.all (·.2.findings.isEmpty) = true) (ix : Index)
    (home : registry.Holds ix) : ix.findings = [] := by
  obtain ⟨location, there⟩ := home
  have listed := (registry.documents.mem_entries_iff location ix).mpr there
  simpa using List.all_eq_true.mp clear _ listed

/-- `start` leads into the other document and from there back to `end`. -/
def neighbours : Registry := .ofDocuments [
  ("/a.yaml", Build.runNew <| Build.object [
    ("start", Build.reference "b.yaml#/next"),
    ("end", Build.object [])]),
  ("/b.yaml", Build.runNew <| Build.object [("next", Build.reference "a.yaml#/end")])]

theorem locate_outcome_neighbours :
    let s := neighbours.standAt "/a.yaml" "/start"
    ∃ l, s.Arrives neighbours l ∧ l.pointer = "/a.yaml#/end" ∧
      locate neighbours s.node s.index {} = .ok (some l) ∧
      chase neighbours s.node s.index {} 0 = .ok (some l) := by
  intro s
  have home : neighbours.Holds s.index := Registry.holds_standAt (by decide +kernel) "/start"
  have unflagged := neighbours.findings_of_holds (by decide +kernel)
  have settled := settled_of_route neighbours s 2
    (by decide +kernel) (by decide +kernel)
  have reference : s.node.isRef = true := by decide +kernel
  obtain ⟨agree, arriving, _⟩ :=
    locate_outcome neighbours s.index s.node home unflagged reference settled
  have pointers : (s.route neighbours 2).map Located.pointer =
      ["/b.yaml#/next", "/a.yaml#/end"] := by decide +kernel
  have plain : (s.route neighbours 2).getLast?.any (fun l => !l.node.isRef) = true := by
    decide +kernel
  have walk := s.walk_route neighbours 2
  have length : (s.route neighbours 2).length = 2 := by
    rw [← List.length_map (f := Located.pointer), pointers]
    rfl
  obtain ⟨next, last, two⟩ := List.length_eq_two.mp length
  rw [two] at walk pointers plain
  obtain ⟨_, pointer⟩ : next.pointer = "/b.yaml#/next" ∧ last.pointer = "/a.yaml#/end" := by
    simpa using pointers
  have arrives : s.Arrives neighbours last :=
    ⟨[next], walk, by simp [maxHops], by simpa using plain⟩
  have found := arriving last arrives
  exact ⟨last, arrives, pointer, found, agree.trans found⟩

end DocRefs
