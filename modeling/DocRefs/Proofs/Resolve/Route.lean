import DocRefs.Resolve

/-!
# Routes through documents

A walk stands at a node, in the document of an index and in a context. A route is what the tables
make of its references: each hop goes to the place that they know, which may be in another document,
and the next one is read there. `Stand.step_hop` says once what a single hop of resolution can do;
what it does along a whole route follows by induction: `locateWithin_route` walks a route, and
`exists_route_of_locateWithin` finds the one behind a location.
-/
namespace DocRefs

/-- Where a walk stands. -/
structure Stand where
  node : Node
  index : Index
  context : Context := {}

/-- Where a walk stands when it goes on from a place. -/
def Located.stand (l : Located) : Stand := ⟨l.node, l.index, l.context⟩

@[simp] theorem Located.stand_node (l : Located) : l.stand.node = l.node := rfl

@[simp] theorem Located.stand_index (l : Located) : l.stand.index = l.index := rfl

@[simp] theorem Located.stand_context (l : Located) : l.stand.context = l.context := rfl

/-- A walk goes on from the place: it is a reference, and no finding knows it. -/
def Located.Passes (l : Located) : Prop :=
  l.node.isRef = true ∧ l.index.findingFor? l.node = none

instance (l : Located) : Decidable l.Passes := inferInstanceAs (Decidable (_ ∧ _))

theorem Index.findingFor?_eq_none {ix : Index} (clear : ix.findings = []) (n : Node) :
    ix.findingFor? n = none := by
  cases written : n.refText? <;> simp [findingFor?, clear, written]

/-- The place on a cycle that the reference `written` has led to. -/
def Located.flagged (l : Located) (finding : Finding) (written : Node) : Located :=
  { l with
    onCycle := true
    circular := if l.index.config.allowCircular then none
      else some (.circular finding.path written.position) }

namespace Stand

/-- The value of the reference entry. -/
def written? (s : Stand) : Option Node := s.node.refEntry?.map (·.2)

/-- The absolute pointer of the reference; an empty text makes none. -/
def pointer? (s : Stand) : Option String := do
  let written ← s.written?
  if written.text.isEmpty then none
  else return s.index.pointerIn s.context written.text

/-- The place that the tables know for the reference. -/
def next? (registry : Registry) (s : Stand) : Option Located := do
  let pointer ← s.pointer?
  let answer ← s.index.answer? registry pointer s.context
  return {
    node := answer.reference.node, index := answer.owner.getD s.index, context := answer.context
    pointer }

/-- The place that a search of the document itself finds for the reference. -/
def searched? (s : Stand) : Option Located := do
  let pointer ← s.pointer?
  let found ← s.index.search? pointer
  return { node := found, index := s.index, context := s.context, pointer }

/-- Where a walk stands behind a route. -/
def after (s : Stand) (route : List Located) : Stand :=
  (route.getLast?.map Located.stand).getD s

@[simp] theorem after_nil (s : Stand) : s.after [] = s := rfl

@[simp] theorem after_cons (s : Stand) (l : Located) (route : List Located) :
    s.after (l :: route) = l.stand.after route := by
  cases route <;> simp [after, List.getLast?_cons]

@[simp] theorem after_append (s : Stand) (route more : List Located) :
    s.after (route ++ more) = (s.after route).after more := by
  induction route generalizing s with
  | nil => rfl
  | cons l route ih => simp [ih]

theorem written?_isSome (s : Stand) : s.written?.isSome = s.node.isRef := by
  simp [written?, Node.isRef]

theorem pointer?_eq_some_iff {s : Stand} {pointer : String} :
    s.pointer? = some pointer ↔ ∃ written, s.written? = some written ∧
      written.text.isEmpty = false ∧ s.index.pointerIn s.context written.text = pointer := by
  simp [pointer?, Option.bind_eq_some_iff]

theorem next?_eq_some_iff {registry : Registry} {s : Stand} {l : Located} :
    s.next? registry = some l ↔ ∃ pointer answer, s.pointer? = some pointer ∧
      s.index.answer? registry pointer s.context = some answer ∧
      l = {
        node := answer.reference.node, index := answer.owner.getD s.index
        context := answer.context, pointer } := by
  simp only [next?, Option.bind_eq_bind, Option.bind_eq_some_iff, Option.pure_def,
    Option.some.injEq, exists_and_left, eq_comm (a := l)]

theorem searched?_eq_some_iff {s : Stand} {l : Located} :
    s.searched? = some l ↔ ∃ pointer found, s.pointer? = some pointer ∧
      s.index.search? pointer = some found ∧
      l = { node := found, index := s.index, context := s.context, pointer } := by
  simp only [searched?, Option.bind_eq_bind, Option.bind_eq_some_iff, Option.pure_def,
    Option.some.injEq, exists_and_left, eq_comm (a := l)]

theorem isRef_of_next? {registry : Registry} {s : Stand} {l : Located}
    (next : s.next? registry = some l) : s.node.isRef = true := by
  obtain ⟨pointer, _, there, _⟩ := next?_eq_some_iff.mp next
  obtain ⟨written, reads, _⟩ := pointer?_eq_some_iff.mp there
  rw [← written?_isSome, reads]
  rfl

/-! ### Single hops -/

/-- What a hop from the reference `written` can do: where the tables know a place, it goes there,
and otherwise it takes what a search finds. -/
inductive Step (registry : Registry) (s : Stand) (written : Node) :
    Except RefError (Located × Bool) → Prop
  | blank (empty : written.text.isEmpty = true) :
    Step registry s written (.error (.emptyReference written.position))
  | passes {l : Located} (next : s.next? registry = some l) (passes : l.Passes) :
    Step registry s written (.ok (l, true))
  | rests {l : Located} (next : s.next? registry = some l) (plain : l.node.isRef = false) :
    Step registry s written (.ok (l, false))
  | flagged {l : Located} {finding : Finding} (next : s.next? registry = some l)
    (reference : l.node.isRef = true) (found : l.index.findingFor? l.node = some finding) :
    Step registry s written (.ok (l.flagged finding written, false))
  | searched {l : Located} (unknown : s.next? registry = none) (found : s.searched? = some l) :
    Step registry s written (.ok (l, false))
  | lost (text : written.text.isEmpty = false) (unknown : s.next? registry = none)
    (nothing : s.searched? = none) :
    Step registry s written (.error (.notFound written.text written.position))

theorem step_hop (registry : Registry) {s : Stand} {written : Node}
    (reads : s.written? = some written) :
    Step registry s written (s.index.hop registry s.context written) := by
  unfold Index.hop
  split
  next empty => exact .blank empty
  next text =>
    have text : written.text.isEmpty = false := by simpa using text
    have pointer : s.pointer? = some (s.index.pointerIn s.context written.text) :=
      pointer?_eq_some_iff.mpr ⟨written, reads, text, rfl⟩
    dsimp only
    split
    next answer known =>
      have next := next?_eq_some_iff.mpr ⟨_, answer, pointer, known, rfl⟩
      cases reference : answer.reference.node.isRef with
      | false => simpa [Index.arrive, reference] using Step.rests next reference
      | true =>
        cases found : (answer.owner.getD s.index).findingFor? answer.reference.node with
        | none => simpa [Index.arrive, reference, found] using Step.passes next ⟨reference, found⟩
        | some finding =>
          simpa [Index.arrive, reference, found, Located.flagged] using
            Step.flagged next reference found
    next unknown =>
      have unknown : s.next? registry = none := by simp [next?, pointer, unknown]
      split
      next found there =>
        exact .searched unknown (searched?_eq_some_iff.mpr ⟨_, found, pointer, there, rfl⟩)
      next nothing => exact .lost text unknown (by simp [searched?, pointer, nothing])

section Hops

variable {registry : Registry} {s : Stand} {l : Located} {written : Node}

theorem exists_written (reference : s.node.isRef = true) : ∃ written, s.written? = some written :=
  Option.isSome_iff_exists.mp (s.written?_isSome.trans reference)

theorem text_of_next? (next : s.next? registry = some l) (reads : s.written? = some written) :
    written.text.isEmpty = false := by
  obtain ⟨_, _, there, _⟩ := next?_eq_some_iff.mp next
  obtain ⟨other, same, text, _⟩ := pointer?_eq_some_iff.mp there
  obtain rfl : other = written := Option.some.inj (same.symm.trans reads)
  exact text

/-- A hop to a place that the tables know. -/
theorem hop_of_next (next : s.next? registry = some l) (reads : s.written? = some written) :
    l.Passes ∧ s.index.hop registry s.context written = .ok (l, true) ∨
      l.node.isRef = false ∧ s.index.hop registry s.context written = .ok (l, false) ∨
      ∃ finding, l.node.isRef = true ∧ l.index.findingFor? l.node = some finding ∧
        s.index.hop registry s.context written = .ok (l.flagged finding written, false) := by
  have step := step_hop registry reads
  have text := text_of_next? next reads
  generalize s.index.hop registry s.context written = result at step ⊢
  cases step with
  | blank empty => simp [text] at empty
  | passes next' passes =>
    obtain rfl := Option.some.inj (next.symm.trans next')
    exact .inl ⟨passes, rfl⟩
  | rests next' plain =>
    obtain rfl := Option.some.inj (next.symm.trans next')
    exact .inr (.inl ⟨plain, rfl⟩)
  | flagged next' reference found =>
    obtain rfl := Option.some.inj (next.symm.trans next')
    exact .inr (.inr ⟨_, reference, found, rfl⟩)
  | searched unknown _ => simp [next] at unknown
  | lost _ unknown _ => simp [next] at unknown

theorem hop_of_passes (next : s.next? registry = some l) (passes : l.Passes)
    (reads : s.written? = some written) :
    s.index.hop registry s.context written = .ok (l, true) := by
  obtain ⟨reference, clear⟩ := passes
  rcases hop_of_next next reads with ⟨_, goes⟩ | ⟨plain, _⟩ | ⟨_, _, found, _⟩
  · exact goes
  · simp [reference] at plain
  · simp [clear] at found

theorem hop_of_plain (next : s.next? registry = some l) (plain : l.node.isRef = false)
    (reads : s.written? = some written) :
    s.index.hop registry s.context written = .ok (l, false) := by
  rcases hop_of_next next reads with ⟨⟨reference, _⟩, _⟩ | ⟨_, rests⟩ | ⟨_, reference, _⟩
  · simp [plain] at reference
  · exact rests
  · simp [plain] at reference

theorem hop_of_blank (empty : written.text.isEmpty = true) :
    s.index.hop registry s.context written = .error (.emptyReference written.position) := by
  simp [Index.hop, empty]

/-- A hop from a text whose pointer no table knows. -/
theorem hop_of_unknown (unknown : s.next? registry = none) (reads : s.written? = some written)
    (text : written.text.isEmpty = false) :
    (∃ l, s.searched? = some l ∧ s.index.hop registry s.context written = .ok (l, false)) ∨
      s.searched? = none ∧ s.index.hop registry s.context written =
        .error (.notFound written.text written.position) := by
  have step := step_hop registry reads
  generalize s.index.hop registry s.context written = result at step ⊢
  cases step with
  | blank empty => simp [text] at empty
  | searched _ found => exact .inl ⟨_, found, rfl⟩
  | lost _ _ nothing => exact .inr ⟨nothing, rfl⟩
  | passes next _ => simp [unknown] at next
  | rests next _ => simp [unknown] at next
  | flagged next _ _ => simp [unknown] at next

theorem hop_of_lost (unknown : s.next? registry = none) (nothing : s.searched? = none)
    (reads : s.written? = some written) (text : written.text.isEmpty = false) :
    s.index.hop registry s.context written =
      .error (.notFound written.text written.position) := by
  rcases hop_of_unknown unknown reads text with ⟨_, found, _⟩ | ⟨_, fails⟩
  · simp [nothing] at found
  · exact fails

theorem hop_of_searched (unknown : s.next? registry = none) (found : s.searched? = some l)
    (reads : s.written? = some written) :
    s.index.hop registry s.context written = .ok (l, false) := by
  obtain ⟨_, _, there, _⟩ := searched?_eq_some_iff.mp found
  obtain ⟨other, same, text, _⟩ := pointer?_eq_some_iff.mp there
  obtain rfl : other = written := Option.some.inj (same.symm.trans reads)
  rcases hop_of_unknown unknown reads text with ⟨l', found', goes⟩ | ⟨nothing, _⟩
  · rwa [Option.some.inj (found.symm.trans found')]
  · simp [found] at nothing

end Hops

end Stand

/-- The first hop leads on from the stand, and every other one from the place before it. -/
inductive Route (registry : Registry) : Stand → List Located → Prop
  | stay (s : Stand) : Route registry s []
  | hop {s : Stand} {l : Located} {rest : List Located} (next : s.next? registry = some l)
      (later : Route registry l.stand rest) : Route registry s (l :: rest)

namespace Route

variable {registry : Registry} {s : Stand} {l : Located} {route more : List Located}

theorem head (walk : Route registry s (l :: route)) : s.next? registry = some l := by
  cases walk with
  | hop next later => exact next

theorem tail (walk : Route registry s (l :: route)) : Route registry l.stand route := by
  cases walk with
  | hop next later => exact later

theorem concat (walk : Route registry s route) (next : (s.after route).next? registry = some l) :
    Route registry s (route ++ [l]) := by
  induction walk with
  | stay s => exact .hop next (.stay _)
  | hop first later ih => exact .hop first (ih (by simpa using next))

theorem split (walk : Route registry s (route ++ more)) :
    Route registry s route ∧ Route registry (s.after route) more := by
  induction route generalizing s with
  | nil => exact ⟨.stay s, walk⟩
  | cons l route ih =>
    obtain ⟨early, late⟩ := ih walk.tail
    exact ⟨.hop walk.head early, by simpa using late⟩

end Route

/-! ### Whole walks -/

section Walks

variable {registry : Registry} {s : Stand} {l : Located} {written : Node}

theorem Stand.next_of_pass (reads : s.written? = some written)
    (goes : s.index.hop registry s.context written = .ok (l, true)) :
    s.next? registry = some l ∧ l.Passes := by
  have step := step_hop registry reads
  rw [goes] at step
  cases step with
  | passes next passes => exact ⟨next, passes⟩

theorem exists_refEntry (reads : s.written? = some written) :
    ∃ key, s.node.refEntry? = some (key, written) := by
  obtain ⟨⟨key, value⟩, entry, rfl⟩ := Option.map_eq_some_iff.mp reads
  exact ⟨key, entry⟩

theorem locateWithin_of_error {e : RefError} (hops : Nat) (reads : s.written? = some written)
    (fails : s.index.hop registry s.context written = .error e) :
    locateWithin registry (hops + 1) s.node s.index s.context = .error e := by
  obtain ⟨key, entry⟩ := exists_refEntry reads
  simp [locateWithin, entry, fails]

theorem locateWithin_of_rest (hops : Nat) (reads : s.written? = some written)
    (rests : s.index.hop registry s.context written = .ok (l, false)) :
    locateWithin registry (hops + 1) s.node s.index s.context = .ok (some l) := by
  obtain ⟨key, entry⟩ := exists_refEntry reads
  simp [locateWithin, entry, rests]

theorem locateWithin_of_pass (hops : Nat) (reads : s.written? = some written)
    (goes : s.index.hop registry s.context written = .ok (l, true)) :
    locateWithin registry (hops + 1) s.node s.index s.context =
      locateWithin registry hops l.node l.index l.context := by
  obtain ⟨key, entry⟩ := exists_refEntry reads
  simp [locateWithin, entry, goes]

/-- A location walks along a route of places that it passes. -/
theorem locateWithin_route (hops : Nat) {route : List Located} (walk : Route registry s route)
    (passes : ∀ l ∈ route, l.Passes) :
    locateWithin registry (hops + route.length) s.node s.index s.context =
      locateWithin registry hops (s.after route).node (s.after route).index
        (s.after route).context := by
  induction walk with
  | stay s => rfl
  | @hop s l rest next later ih =>
    obtain ⟨here, beyond⟩ := List.forall_mem_cons.mp passes
    obtain ⟨written, reads⟩ := Stand.exists_written (Stand.isRef_of_next? next)
    have goes := Stand.hop_of_passes next here reads
    rw [List.length_cons, ← Nat.add_assoc, locateWithin_of_pass _ reads goes, Stand.after_cons]
    exact ih beyond

/-- Behind every location there is a route, and a last hop that comes to rest. -/
theorem exists_route_of_locateWithin {hops : Nat}
    (found : locateWithin registry hops s.node s.index s.context = .ok (some l)) :
    ∃ route written, Route registry s route ∧ (∀ h ∈ route, h.Passes) ∧ route.length < hops ∧
      (s.after route).written? = some written ∧
      (s.after route).index.hop registry (s.after route).context written = .ok (l, false) := by
  induction hops generalizing s with
  | zero =>
    unfold locateWithin at found
    split at found <;> simp at found
  | succ hops ih =>
    cases entry : s.node.refEntry? with
    | none => simp [locateWithin, entry] at found
    | some pair =>
      obtain ⟨key, written⟩ := pair
      have reads : s.written? = some written := by simp [Stand.written?, entry]
      cases goes : s.index.hop registry s.context written with
      | error e => simp [locateWithin_of_error hops reads goes] at found
      | ok step =>
        obtain ⟨here, onward⟩ := step
        cases onward with
        | false =>
          rw [locateWithin_of_rest hops reads goes] at found
          obtain rfl : here = l := by simpa using found
          exact ⟨[], written, .stay s, by simp, Nat.succ_pos hops, reads, goes⟩
        | true =>
          rw [locateWithin_of_pass hops reads goes] at found
          -- The hop is put in front of the route behind what is found from there.
          obtain ⟨next, passes⟩ := Stand.next_of_pass reads goes
          obtain ⟨route, last, walk, all, short, rest⟩ := ih (s := here.stand) found
          refine ⟨here :: route, last, .hop next walk, ?_, Nat.succ_lt_succ short, ?_⟩
          · exact List.forall_mem_cons.mpr ⟨passes, all⟩
          · simpa using rest

end Walks

/-! ### Where an answer comes from -/

/-- The index is that of a registered document. -/
def Registry.Holds (registry : Registry) (ix : Index) : Prop :=
  ∃ location, registry.documents.get? location = some ix

theorem Registry.get?_of_indexAt? {registry : Registry} {location : String} {ix : Index}
    (found : registry.indexAt? location = some ix) :
    registry.documents.get? location = some ix ∨
      registry.documents.get? (Location.normalize location) = some ix :=
  (Option.or_eq_some_iff.mp found).imp id And.right

theorem Registry.find?_eq_some_iff {registry : Registry} {pointer : String} {owner : Index}
    {r : Reference} : registry.find? pointer = some (owner, r) ↔
      registry.indexAt? (Location.splitPointer pointer).1 = some owner ∧
        owner.find? (Location.splitPointer pointer).2 = some r := by
  simp [Registry.find?, Option.bind_eq_some_iff, and_left_comm]

/-- A pointer into the document itself is answered there, and any other one by the registry. -/
theorem Index.answer?_eq_some {ix : Index} {registry : Registry} {pointer : String}
    {context : Context} {answer : Answer}
    (known : ix.answer? registry pointer context = some answer) :
    ix.isLocal (Location.splitPointer pointer).1 = true ∧ answer.owner = none ∧
        answer.context = context ∨
      ix.isLocal (Location.splitPointer pointer).1 = false ∧
        ∃ owner, registry.find? pointer = some (owner, answer.reference) ∧
          answer.owner = some owner ∧
          answer.context = ⟨some (Location.splitPointer pointer).1⟩ := by
  cases inside : ix.isLocal (Location.splitPointer pointer).1 with
  | true =>
    refine .inl ⟨rfl, ?_⟩
    simp only [answer?, resolve?, inside, if_true] at known
    split at known
    · rw [← Option.some.inj known]
      exact ⟨rfl, rfl⟩
    · obtain ⟨r, _, rfl⟩ := Option.map_eq_some_iff.mp known
      exact ⟨rfl, rfl⟩
  | false =>
    refine .inr ⟨rfl, ?_⟩
    simp only [answer?, resolve?, inside, findElsewhere?, Bool.false_eq_true, if_false,
      Option.ite_none_right_eq_some] at known
    obtain ⟨⟨owner, r⟩, found, rfl⟩ := Option.map_eq_some_iff.mp known.2
    exact ⟨owner, found, rfl, rfl⟩

theorem Stand.index_of_next? {registry : Registry} {s : Stand} {l : Located}
    (next : s.next? registry = some l) : l.index = s.index ∨ registry.Holds l.index := by
  obtain ⟨pointer, answer, _, known, rfl⟩ := next?_eq_some_iff.mp next
  rcases Index.answer?_eq_some known with ⟨_, own, _⟩ | ⟨_, owner, found, other, _⟩
  · exact .inl (by rw [own]; rfl)
  · obtain ⟨there, _⟩ := Registry.find?_eq_some_iff.mp found
    refine .inr ?_
    rw [other]
    exact (Registry.get?_of_indexAt? there).elim (⟨_, ·⟩) (⟨_, ·⟩)

/-- A walk that begins in a registered document stays in registered documents. -/
theorem Route.holds {registry : Registry} {s : Stand} {route : List Located}
    (walk : Route registry s route) (home : registry.Holds s.index) :
    ∀ l ∈ route, registry.Holds l.index := by
  induction walk with
  | stay s => simp
  | hop next later ih =>
    have there := (Stand.index_of_next? next).elim (fun same => same ▸ home) id
    exact List.forall_mem_cons.mpr ⟨there, ih there⟩

/-- Where a walk from a place in a registered document starts. -/
def Registry.standAt (registry : Registry) (location fragment : String) : Stand :=
  let ix := (registry.indexAt? location).getD default
  ⟨((ix.find? fragment).map (·.node)).getD default, ix, {}⟩

theorem Registry.holds_standAt {registry : Registry} {location : String}
    (there : (registry.indexAt? location).isSome = true) (fragment : String) :
    registry.Holds (registry.standAt location fragment).index := by
  obtain ⟨ix, found⟩ := Option.isSome_iff_exists.mp there
  simp only [standAt, found, Option.getD_some]
  exact (get?_of_indexAt? found).elim (⟨_, ·⟩) (⟨_, ·⟩)

/-! ### What a walk depends on -/

theorem locateWithin_congr {registry : Registry} {a b : Node} (same : a.refEntry? = b.refEntry?)
    (hops : Nat) (ix : Index) (context : Context) :
    locateWithin registry hops a ix context = locateWithin registry hops b ix context := by
  have reference : a.isRef = b.isRef := by rw [Node.isRef, Node.isRef, same]
  cases hops with
  | zero => simp [locateWithin, reference]
  | succ hops => simp [locateWithin, same]

/-- A reference is never located as nothing. -/
theorem isRef_eq_false_of_locateWithin {registry : Registry} {hops : Nat} {s : Stand}
    (nothing : locateWithin registry hops s.node s.index s.context = .ok none) :
    s.node.isRef = false := by
  induction hops generalizing s with
  | zero => simpa [locateWithin] using nothing
  | succ hops ih =>
    cases reference : s.node.isRef with
    | false => rfl
    | true =>
      obtain ⟨written, reads⟩ := s.exists_written reference
      cases goes : s.index.hop registry s.context written with
      | error e => simp [locateWithin_of_error hops reads goes] at nothing
      | ok step =>
        obtain ⟨here, onward⟩ := step
        cases onward with
        | false => simp [locateWithin_of_rest hops reads goes] at nothing
        | true =>
          obtain ⟨_, passed, _⟩ := Stand.next_of_pass reads goes
          rw [locateWithin_of_pass hops reads goes] at nothing
          have plain := ih (s := here.stand) nothing
          simp [passed] at plain

/-! ### Hops to spare -/

/-- With more hops a location stays what it is, unless it ran out of them. -/
theorem locateWithin_mono {registry : Registry} {hops more : Nat} (le : hops ≤ more) {n : Node}
    {ix : Index} {context : Context}
    (enough : locateWithin registry hops n ix context ≠ .error .depthExceeded) :
    locateWithin registry more n ix context = locateWithin registry hops n ix context := by
  induction hops generalizing more n ix context with
  | zero =>
    -- Without hops only a node that is no reference is answered.
    have plain : n.isRef = false := by
      unfold locateWithin at enough
      split at enough
      · exact absurd rfl enough
      next plain => simpa using plain
    rw [locateWithin_of_not_ref registry more ix context plain,
      locateWithin_of_not_ref registry 0 ix context plain]
  | succ hops ih =>
    obtain ⟨more, rfl⟩ := Nat.exists_eq_add_of_le' (Nat.le_trans (Nat.succ_pos hops) le)
    have le := Nat.le_of_succ_le_succ le
    unfold locateWithin at enough ⊢
    split
    · rfl
    next entry =>
      rw [entry] at enough
      dsimp only at enough
      split
      · rfl
      next goes =>
        rw [goes] at enough
        exact ih le enough
      · rfl

end DocRefs
