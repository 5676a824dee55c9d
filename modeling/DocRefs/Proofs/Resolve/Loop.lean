import DocRefs.Proofs.Resolve.Walk

/-!
# Chains that come round

Main result: `locate_onCycle_of_round`. Hops between references that the index lists are edges of
its graph, so a chain of them that comes round is a cycle there. Then a closing edge starts from one
of its pointers, and the place of that pointer has a finding.
-/
namespace DocRefs

namespace Index

section Alone

variable {config : Config} {root : Node}

theorem trail_append {ix : Index} {n : Node} {front back : List Hop}
    (trail : ix.Trail n (front ++ back)) : ix.Trail n front ∧ ∃ m, ix.Trail m back := by
  induction front generalizing n with
  | nil => exact ⟨.stay n, n, trail⟩
  | cons first front ih =>
    obtain ⟨early, late⟩ := ih trail.tail
    exact ⟨.hop trail.head early, late⟩

theorem designated_of_trail {ix : Index} {n : Node} {hops : List Hop} (trail : ix.Trail n hops) :
    ∀ h ∈ hops, ix.designated? h.pointer = some h.place := by
  induction hops generalizing n with
  | nil => simp
  | cons first hops ih =>
    obtain ⟨_, _, _, _, _, there⟩ := plainHop?_eq_some trail.head
    exact List.forall_mem_cons.mpr ⟨there, ih trail.tail⟩

/-- The hop stays in the document and arrives where the index has mapped its pointer to. -/
def Mapped (config : Config) (root : Node) (h : Hop) : Prop :=
  (ofDocument config root).isLocal (Location.splitPointer h.pointer).1 = true ∧
    ∃ r, (firstMapped config (config.specPath.map Location.normalize) none root).get? h.pointer =
      some r ∧ r.node = h.place

theorem Mapped.knows {h : Hop} (mapped : Mapped config root h) :
    (ofDocument config root).Knows h.pointer := by
  obtain ⟨_, r, found, _⟩ := mapped
  left
  simp [ofDocument, mapped_build, Table.contains, Table.get?_mapValues, found]

/-- The node is a reference that the index lists. -/
def Listed (ix : Index) (n : Node) : Prop := ∃ r ∈ ix.sites, r.node = n

theorem Listed.site {n : Node} (listed : (ofDocument config root).Listed n) :
    ∃ site ∈ RefSite.below root.unwrapDocument, site.node = n := by
  obtain ⟨r, member, rfl⟩ := listed
  obtain ⟨other, there, same⟩ := List.mem_map.mp member
  obtain ⟨site, below, rfl⟩ := List.mem_map.mp there
  refine ⟨site, below, ?_⟩
  rw [← same]
  split <;> rfl

theorem Listed.isRef {n : Node} (listed : (ofDocument config root).Listed n) :
    n.isRef = true := by
  obtain ⟨site, below, rfl⟩ := listed.site
  simp [Node.isRef, (RefSite.faithful_of_mem_below _ below).entry]

theorem mapped_of_listed {n : Node} {h : Hop} (listed : (ofDocument config root).Listed n)
    (plain : (ofDocument config root).plainHop? n = some h) : Mapped config root h := by
  obtain ⟨site, below, rfl⟩ := listed.site
  obtain ⟨key, written, entry, some_text, pointer, there⟩ := plainHop?_eq_some plain
  have own := (RefSite.faithful_of_mem_below _ below).entry
  obtain ⟨rfl, rfl⟩ := Prod.mk.inj (Option.some.inj (own.symm.trans entry))
  obtain ⟨inside, target, found, node⟩ := designated?_eq_some there
  refine ⟨inside, { target with definition := h.pointer }, get?_mappedOf_iff.mpr ⟨?_, ?_⟩, node⟩
  · refine ⟨site.toReference (config.specPath.map Location.normalize) config.baseUrl,
      List.mem_map_of_mem below, ?_, some_text⟩
    rw [pointer]
    rfl
  · have inside : (Catalog.ofDocument (config.specPath.map Location.normalize) root).isLocal
        (Location.splitPointer h.pointer).1 = true := inside
    have found : (Catalog.ofDocument (config.specPath.map Location.normalize) root).find?
        (Location.splitPointer h.pointer).2 = some target := found
    simp [target?, inside, found]

/-- The hop from a listed reference at a mapped pointer is an edge. -/
theorem edge_of_listed {h next : Hop} (listed : (ofDocument config root).Listed h.place)
    (mapped : Mapped config root h)
    (plain : (ofDocument config root).plainHop? h.place = some next) :
    (ofDocument config root).references.Edge h.pointer next.pointer := by
  obtain ⟨_, target, leads, _⟩ := mapped_of_listed listed plain
  obtain ⟨site, below, here⟩ := listed.site
  have faithful := RefSite.faithful_of_mem_below _ below
  rw [← here] at plain
  obtain ⟨key, written, entry, _, pointer, _⟩ := plainHop?_eq_some plain
  obtain ⟨rfl, rfl⟩ := Prod.mk.inj (Option.some.inj (faithful.entry.symm.trans entry))
  obtain ⟨inside, r, found, node⟩ := mapped
  refine edge_references_iff.mpr ⟨inside, r, found, mem_pointersBelow.mpr ⟨?_, target, leads⟩⟩
  rw [node, ← here]
  exact ⟨site, faithful.mem_below, pointer.symm⟩

theorem mapped_of_trail {n : Node} {hops : List Hop} {last : Hop}
    (trail : (ofDocument config root).Trail n (hops ++ [last]))
    (listed : (ofDocument config root).Listed n)
    (listed_hops : ∀ h ∈ hops, (ofDocument config root).Listed h.place) :
    ∀ h ∈ hops ++ [last], Mapped config root h := by
  induction hops generalizing n with
  | nil => simpa using mapped_of_listed listed trail.head
  | cons first hops ih =>
    obtain ⟨listed_first, listed_later⟩ := List.forall_mem_cons.mp listed_hops
    have mapped := mapped_of_listed listed trail.head
    exact List.forall_mem_cons.mpr ⟨mapped, ih trail.tail listed_first listed_later⟩

/-- Hops between listed references are a chain of edges. -/
theorem isChain_of_trail {first last : Hop} {hops : List Hop}
    (trail : (ofDocument config root).Trail first.place (hops ++ [last]))
    (listed : ∀ h ∈ first :: hops, (ofDocument config root).Listed h.place)
    (mapped : Mapped config root first) :
    (first.pointer :: (hops.map Hop.pointer ++ [last.pointer])).IsChain
      (ofDocument config root).references.Edge := by
  induction hops generalizing first with
  | nil =>
    have edge := edge_of_listed (listed first (by simp)) mapped trail.head
    exact List.isChain_pair.mpr edge
  | cons next hops ih =>
    obtain ⟨listed_first, listed_later⟩ := List.forall_mem_cons.mp listed
    have edge := edge_of_listed listed_first mapped trail.head
    have mapped_next := mapped_of_listed listed_first trail.head
    exact List.isChain_cons_cons.mpr ⟨edge, ih trail.tail listed_later mapped_next⟩

/-- The place of a member of a reported cycle has a finding. -/
theorem findingFor?_of_member {c : Cycle} {h : Hop}
    (reported : c ∈ (ofDocument config root).references.cycles)
    (member : h.pointer ∈ c.members) (mapped : Mapped config root h) :
    ((ofDocument config root).findingFor? h.place).isSome = true := by
  obtain ⟨_, r, leads, node⟩ := mapped
  have on := (Graph.mem_reported_iff _ _).mp ⟨c, reported, member⟩
  refine (findingFor?_isSome_iff h.place).mpr (.inl ⟨h.pointer, on, r, leads, ?_⟩)
  simp [node, Node.isSame]

/-- Somewhere on a round of listed references there is a place with a finding. -/
theorem exists_finding_of_round {n : Node} {first again : Hop} {loop : List Hop}
    (trail : (ofDocument config root).Trail n (first :: (loop ++ [again])))
    (round : again.pointer = first.pointer)
    (listed : ∀ h ∈ first :: loop, (ofDocument config root).Listed h.place) :
    (∀ h ∈ first :: loop, Mapped config root h) ∧
      ∃ h ∈ first :: loop, ((ofDocument config root).findingFor? h.place).isSome = true := by
  have designated := designated_of_trail trail
  have here : (ofDocument config root).designated? first.pointer = some first.place :=
    designated first (by simp)
  have there : (ofDocument config root).designated? again.pointer = some again.place :=
    designated again (by simp)
  have place : again.place = first.place := by
    rw [round, here] at there
    exact (Option.some.inj there).symm
  obtain ⟨listed_first, listed_loop⟩ := List.forall_mem_cons.mp listed
  have mapped_later := mapped_of_trail trail.tail listed_first listed_loop
  -- The last hop comes back to the first, so that one is mapped as well.
  have mapped_first : Mapped config root first := by
    have mapped := mapped_later again (by simp)
    rwa [Mapped, round, place] at mapped
  have mapped : ∀ h ∈ first :: loop, Mapped config root h :=
    List.forall_mem_cons.mpr ⟨mapped_first, fun h later => mapped_later h (by simp [later])⟩
  -- So the pointers of the round are a cycle of edges, and one of them closes a reported cycle.
  have chain := isChain_of_trail trail.tail listed mapped_first
  rw [round] at chain
  obtain ⟨c, reported, closes⟩ := Graph.closing_of_isChain chain
  rw [← List.map_cons] at closes
  obtain ⟨h, member, source⟩ := List.mem_map.mp closes
  have on : h.pointer ∈ c.members := source ▸ Graph.closing_mem_members reported
  exact ⟨mapped, h, member, findingFor?_of_member reported on (mapped h member)⟩

theorem locateWithin_onCycle (registry : Registry) {n : Node} {hops : List Hop} {budget : Nat}
    (trail : (ofDocument config root).Trail n hops)
    (known : ∀ h ∈ hops, (ofDocument config root).Knows h.pointer)
    (met : ∃ h ∈ hops, h.place.isRef = true ∧
      ((ofDocument config root).findingFor? h.place).isSome = true)
    (short : hops.length ≤ budget) :
    ∃ l, locateWithin registry budget n (ofDocument config root) {} = .ok (some l) ∧
      l.onCycle = true ∧ (l.circular.isSome = true ↔ config.allowCircular = false) := by
  induction hops generalizing n budget with
  | nil => simp at met
  | cons first rest ih =>
    obtain ⟨budget, rfl⟩ := Nat.exists_eq_succ_of_ne_zero (Nat.ne_zero_of_lt short)
    have plain := trail.head
    have later := trail.tail
    obtain ⟨known_first, known_rest⟩ := List.forall_mem_cons.mp known
    obtain ⟨h, member, reference, flagged⟩ := met
    rcases List.mem_cons.mp member with rfl | member
    · exact locateWithin_flagged registry budget plain known_first reference flagged
    · have reference_first : first.place.isRef = true := by
        cases rest with
        | nil => simp at member
        | cons next rest => exact isRef_of_plainHop? later.head
      cases finding : (ofDocument config root).findingFor? first.place with
      | none =>
        rw [locateWithin_passing registry budget plain known_first reference_first finding]
        exact ih later known_rest ⟨h, member, reference, flagged⟩ (Nat.le_of_succ_le_succ short)
      | some f =>
        -- The walk may end at an earlier cycle than the one it is known to meet.
        have flagged_first : ((ofDocument config root).findingFor? first.place).isSome = true := by
          simp [finding]
        exact locateWithin_flagged registry budget plain known_first reference_first flagged_first

end Alone

/-- A computed walk of three hops whose last comes back to the second. -/
theorem round_of_plainWalk {ix : Index} {n : Node} {first second : String}
    (pointers : (ix.plainWalk 3 n).map Hop.pointer = [first, second, second]) :
    ∃ before start again, ix.Trail n ([before] ++ start :: ([] ++ [again])) ∧
      before.pointer = first ∧ start.pointer = second ∧ again.pointer = start.pointer := by
  have length : (ix.plainWalk 3 n).length = 3 := by
    rw [← List.length_map (f := Hop.pointer), pointers]
    rfl
  obtain ⟨before, start, again, walk⟩ := List.length_eq_three.mp length
  have trail := ix.trail_plainWalk 3 n
  rw [walk] at trail pointers
  obtain ⟨same, then_second, last⟩ : before.pointer = first ∧ start.pointer = second ∧
      again.pointer = second := by simpa using pointers
  exact ⟨before, start, again, trail, same, then_second, last.trans then_second.symm⟩

/-- A chain of references that comes back to one of its pointers within the hops of a walk is
located as a cycle, if the tables know the pointers before the round and the index lists the
references on it: they are no aliases, and neither are their texts. -/
theorem locate_onCycle_of_round (config : Config) (root : Node) (registry : Registry) (n : Node)
    (before loop : List Hop) (first again : Hop)
    (trail : (ofDocument config root).Trail n (before ++ first :: (loop ++ [again])))
    (round : again.pointer = first.pointer)
    (short : (before ++ first :: (loop ++ [again])).length ≤ maxHops)
    (known : ∀ h ∈ before, (ofDocument config root).Knows h.pointer)
    (listed : ∀ h ∈ first :: loop, (ofDocument config root).Listed h.place) :
    ∃ l, locate registry n (ofDocument config root) {} = .ok (some l) ∧ l.onCycle = true ∧
      (l.circular.isSome = true ↔ config.allowCircular = false) := by
  have regroup : before ++ first :: (loop ++ [again]) = (before ++ first :: loop) ++ [again] := by
    simp
  obtain ⟨_, m, around⟩ := trail_append trail
  obtain ⟨mapped, h, member, flagged⟩ := exists_finding_of_round around round listed
  rw [regroup] at trail short
  obtain ⟨walk, _⟩ := trail_append trail
  have known_walk : ∀ h ∈ before ++ first :: loop, (ofDocument config root).Knows h.pointer := by
    intro h there
    rcases List.mem_append.mp there with early | late
    · exact known h early
    · exact (mapped h late).knows
  have met : ∃ h ∈ before ++ first :: loop, h.place.isRef = true ∧
      ((ofDocument config root).findingFor? h.place).isSome = true :=
    ⟨h, List.mem_append_right _ member, (listed h member).isRef, flagged⟩
  rw [List.length_append] at short
  exact locateWithin_onCycle registry walk known_walk met (by omega)

/-- From `start` into the round of `own`. -/
def roundAhead : Node := Build.runNew <| Build.object [
  ("start", Build.reference "#/into"),
  ("into", Build.reference "#/own"),
  ("own", Build.reference "#/own")]

theorem locate_onCycle_of_roundAhead :
    let ix := ofDocument {} roundAhead
    ∃ l, locate .alone (ix.placeAt "#/start") ix {} = .ok (some l) ∧ l.onCycle = true ∧
      (l.circular.isSome = true ↔ ({} : Config).allowCircular = false) := by
  intro ix
  have pointers : (ix.plainWalk 3 (ix.placeAt "#/start")).map Hop.pointer =
      ["#/into", "#/own", "#/own"] := by decide +kernel
  obtain ⟨before, first, again, trail, into, own, round⟩ := round_of_plainWalk pointers
  have known : ∀ h ∈ [before], ix.Knows h.pointer := by
    have into_known : ix.Knows "#/into" := by decide +kernel
    simpa [into] using into_known
  have listed : ∀ h ∈ [first], ix.Listed h.place := by
    have there : (ix.sites.map (·.node))[2]? = some (ix.placeAt "#/own") := by rfl
    obtain ⟨r, site, node⟩ := List.mem_map.mp (List.mem_of_getElem? there)
    have place : first.place = ix.placeAt "#/own" := by
      have designated := designated_of_trail trail first (by simp)
      rw [own] at designated
      simp [placeAt, designated]
    simpa [place] using ⟨r, site, node⟩
  have short : ([before] ++ first :: ([] ++ [again])).length ≤ maxHops := by simp [maxHops]
  exact locate_onCycle_of_round {} roundAhead .alone _ [before] [] first again trail round short
    known listed

/-- The round of `again` is written as an alias, and so is the text of `odd`, whose pointer no table
has. -/
def unlisted : Node := Build.runNew do
  let own ← Build.reference "#/again"
  let far ← Build.string "#//loop"
  Build.object [
    ("base", pure own),
    ("again", Build.aliasTo own),
    ("far", pure far),
    ("loop", Build.reference "#/loop"),
    ("odd", Build.object [(referenceKey, Build.aliasTo far)])]

def isOutOfHops : Except RefError (Option Located) → Bool
  | .error .depthExceeded => true
  | _ => false

def isOffCycle : Except RefError (Option Located) → Bool
  | .ok (some l) => !l.onCycle
  | _ => false

theorem round_not_found :
    let ix := ofDocument {} unlisted
    (∀ pointer ∈ ["#/base", "#/odd"], ∃ before loop first again,
      ix.Trail (ix.placeAt pointer) (before ++ first :: (loop ++ [again])) ∧
        again.pointer = first.pointer ∧
        (before ++ first :: (loop ++ [again])).length ≤ maxHops) ∧
      locate .alone (ix.placeAt "#/base") ix {} = .error .depthExceeded ∧
      ∃ l, locate .alone (ix.placeAt "#/odd") ix {} = .ok (some l) ∧ l.onCycle = false := by
  intro ix
  have rounds : ∀ pointer ∈ ["#/base", "#/odd"], ∃ first second,
      (ix.plainWalk 3 (ix.placeAt pointer)).map Hop.pointer = [first, second, second] := by
    have base : (ix.plainWalk 3 (ix.placeAt "#/base")).map Hop.pointer =
        ["#/again", "#/again", "#/again"] := by decide +kernel
    have odd : (ix.plainWalk 3 (ix.placeAt "#/odd")).map Hop.pointer =
        ["#//loop", "#/loop", "#/loop"] := by decide +kernel
    intro pointer listed
    rcases List.mem_pair.mp listed with rfl | rfl
    · exact ⟨_, _, base⟩
    · exact ⟨_, _, odd⟩
  refine ⟨fun pointer listed => ?_, ?_, ?_⟩
  · obtain ⟨_, _, pointers⟩ := rounds pointer listed
    obtain ⟨before, first, again, trail, _, _, round⟩ := round_of_plainWalk pointers
    exact ⟨[before], [], first, again, trail, round, by simp [maxHops]⟩
  · have deep : isOutOfHops (locate .alone (ix.placeAt "#/base") ix {}) = true := by
      decide +kernel
    unfold isOutOfHops at deep
    split at deep
    next found => exact found
    · simp at deep
  · have off : isOffCycle (locate .alone (ix.placeAt "#/odd") ix {}) = true := by decide +kernel
    unfold isOffCycle at off
    split at off
    next l found => exact ⟨l, found, by simpa using off⟩
    · simp at off

end Index

end DocRefs
