import DocRefs.Proofs.Resolve.Circle
import DocRefs.Proofs.Resolve.Loop

/-!
# Chains that end

A chain of references that ends is followed to its end if none of the places on the way has a
finding, and none has where the document has no circle there; it ends on a cycle if a place on the
way is in a finding. One step of the induction is one hop; a chase begins anew where a location rests
on a reference. Main result: `followed_to_end`.
-/
namespace DocRefs.Index

/-- The result is the node, up to aliases, and is on no cycle. -/
def Reaches (result : Except RefError (Option Located)) (n : Node) : Prop :=
  ∃ l, result = .ok (some l) ∧ l.node.resolveAlias = n.resolveAlias ∧ l.onCycle = false ∧
    l.circular = none

theorem reaches_restingAt (ix : Index) (h : Hop) : Reaches (.ok (some (ix.restingAt h))) h.place :=
  ⟨_, rfl, rfl, rfl, rfl⟩

/-- What a chase does with a location. -/
def chaseOn (registry : Registry) (hops : Nat) :
    Option Located → Except RefError (Option Located)
  | none => .ok none
  | some here =>
    if here.onCycle || !here.node.isRef then .ok (some here)
    else chaseWithin registry hops here.node here.index here.context

theorem chaseWithin_succ (registry : Registry) (hops : Nat) (n : Node) (ix : Index)
    (context : Context) :
    chaseWithin registry (hops + 1) n ix context =
      locateWithin registry (hops + 1) n ix context >>= chaseOn registry hops := rfl

theorem chase_zero (registry : Registry) (n : Node) (ix : Index) (context : Context) :
    chase registry n ix context 0 =
      locate registry n ix context >>= chaseOn registry (maxHops - 1) := rfl

theorem ok_chaseOn (registry : Registry) (hops : Nat) (found : Option Located) :
    (.ok found >>= chaseOn registry hops) = chaseOn registry hops found := rfl

theorem error_chaseOn (registry : Registry) (hops : Nat) (e : RefError) :
    (.error e >>= chaseOn registry hops) = .error e := rfl

section Alone

variable {config : Config} {root : Node} {last : Hop}

theorem isRef_of_trail {ix : Index} {n : Node} {passed : List Hop}
    (trail : ix.Trail n (passed ++ [last])) : n.isRef = true := by
  cases passed with
  | nil => exact isRef_of_plainHop? trail.head
  | cons h rest => exact isRef_of_plainHop? trail.head

theorem isRef_of_mem_trail {ix : Index} {n : Node} {passed : List Hop}
    (trail : ix.Trail n (passed ++ [last])) : ∀ h ∈ passed, h.place.isRef = true := by
  induction passed generalizing n with
  | nil => simp
  | cons first rest ih =>
    exact List.forall_mem_cons.mpr ⟨isRef_of_trail trail.tail, ih trail.tail⟩

theorem locateWithin_reaches (registry : Registry) (ends : last.place.isRef = false)
    {passed : List Hop} {n : Node} {hops : Nat}
    (trail : (ofDocument config root).Trail n (passed ++ [last])) (short : passed.length < hops)
    (known : ∀ h ∈ passed, (ofDocument config root).Knows h.pointer)
    (clear : ∀ h ∈ passed, (ofDocument config root).findingFor? h.place = none)
    (finds : (ofDocument config root).Finds last.pointer) :
    Reaches (locateWithin registry hops n (ofDocument config root) {}) last.place := by
  induction passed generalizing n hops with
  | nil =>
    obtain ⟨hops, rfl⟩ := Nat.exists_eq_succ_of_ne_zero (Nat.ne_zero_of_lt short)
    rw [locateWithin_resting registry hops trail.head finds fun _ => ends]
    exact reaches_restingAt _ last
  | cons h rest ih =>
    obtain ⟨hops, rfl⟩ := Nat.exists_eq_succ_of_ne_zero (Nat.ne_zero_of_lt short)
    obtain ⟨known_here, known_later⟩ := List.forall_mem_cons.mp known
    obtain ⟨clear_here, clear_later⟩ := List.forall_mem_cons.mp clear
    have later := trail.tail
    rw [locateWithin_passing registry hops trail.head known_here (isRef_of_trail later) clear_here]
    exact ih later (Nat.lt_of_succ_lt_succ short) known_later clear_later

/-- Where a location rests on a reference, a chase goes on with what is left of its hops. -/
theorem chase_reaches (registry : Registry) (ends : last.place.isRef = false)
    {passed : List Hop} {n : Node} {hops budget : Nat}
    (trail : (ofDocument config root).Trail n (passed ++ [last])) (short : passed.length < hops)
    (enough : passed.length ≤ budget)
    (finds : ∀ h ∈ passed ++ [last], (ofDocument config root).Finds h.pointer)
    (clear : ∀ h ∈ passed, (ofDocument config root).Knows h.pointer →
      (ofDocument config root).findingFor? h.place = none) :
    Reaches (locateWithin registry hops n (ofDocument config root) {} >>= chaseOn registry budget)
      last.place := by
  induction passed generalizing n hops budget with
  | nil =>
    obtain ⟨hops, rfl⟩ := Nat.exists_eq_succ_of_ne_zero (Nat.ne_zero_of_lt short)
    have stays : chaseOn registry budget (some ((ofDocument config root).restingAt last)) =
        .ok (some ((ofDocument config root).restingAt last)) := by
      simp [chaseOn, restingAt, ends]
    rw [locateWithin_resting registry hops trail.head (finds last (by simp)) fun _ => ends,
      ok_chaseOn, stays]
    exact reaches_restingAt _ last
  | cons h rest ih =>
    obtain ⟨hops, rfl⟩ := Nat.exists_eq_succ_of_ne_zero (Nat.ne_zero_of_lt short)
    obtain ⟨budget, rfl⟩ := Nat.exists_eq_succ_of_ne_zero (Nat.ne_zero_of_lt enough)
    obtain ⟨finds_here, finds_later⟩ := List.forall_mem_cons.mp finds
    obtain ⟨clear_here, clear_later⟩ := List.forall_mem_cons.mp clear
    have later := trail.tail
    have reference := isRef_of_trail later
    have enough : rest.length ≤ budget := Nat.le_of_succ_le_succ enough
    by_cases known : (ofDocument config root).Knows h.pointer
    · rw [locateWithin_passing registry hops trail.head known reference (clear_here known)]
      exact ih later (Nat.lt_of_succ_lt_succ short) (Nat.le_succ_of_le enough) finds_later
        clear_later
    · -- The location rests here, so the chase takes the rest of the chain with one hop less.
      have goes : chaseOn registry (budget + 1) (some ((ofDocument config root).restingAt h)) =
          chaseWithin registry (budget + 1) h.place (ofDocument config root) {} := by
        simp [chaseOn, restingAt, reference]
      rw [locateWithin_resting registry hops trail.head finds_here fun there => absurd there known,
        ok_chaseOn, goes, chaseWithin_succ]
      exact ih later (Nat.lt_succ_of_le enough) enough finds_later clear_later

/-- What a finding holds is found to be on a cycle. -/
theorem findingFor?_of_containsNode {ix : Index} {n : Node}
    (listed : ∃ f ∈ ix.findings, f.containsNode n = true) : (ix.findingFor? n).isSome = true := by
  rw [findingFor?, Option.isSome_or, List.find?_isSome.mpr listed, Bool.true_or]

end Alone

/-- A computed walk that ends is a chain up to its last hop. -/
theorem chain_of_plainWalk (ix : Index) (hops : Nat) (n : Node)
    (ends : (ix.plainWalk hops n).getLast?.any (fun h => !h.place.isRef) = true) :
    ∃ last ∈ ix.plainWalk hops n, last.place.isRef = false ∧
      (ix.plainWalk hops n).dropLast ++ [last] = ix.plainWalk hops n := by
  cases found : (ix.plainWalk hops n).getLast? with
  | none => simp [found] at ends
  | some last =>
    obtain ⟨passed, split⟩ := List.getLast?_eq_some_iff.mp found
    have rejoined : (ix.plainWalk hops n).dropLast ++ [last] = ix.plainWalk hops n := by
      rw [split, List.dropLast_concat]
    exact ⟨last, List.mem_of_getLast? found, by simpa [found] using ends, rejoined⟩

/-- A chain of references that ends within the hops of a walk, and whose pointers are known or can
be searched for.

- If no place on the way that a known pointer leads to has a finding, a chase comes to the end of the
  chain on no cycle, and a location too if all pointers before the last are known.
- No place on the way has a finding if none is on a circle of references in the document, and no
  reference on the way names a pointer on one.
- If a place on the way is in a finding, and the pointers before the last are known, both come to one
  and the same place on a cycle, which is an error unless the configuration allows cycles. -/
theorem followed_to_end (config : Config) (root : Node) (registry : Registry) (n : Node)
    (passed : List Hop) (last : Hop)
    (trail : (ofDocument config root).Trail n (passed ++ [last]))
    (short : (passed ++ [last]).length ≤ maxHops) (ends : last.place.isRef = false)
    (finds : ∀ h ∈ passed ++ [last], (ofDocument config root).Finds h.pointer) :
    let ix := ofDocument config root
    ((∀ h ∈ passed, ix.Knows h.pointer → ix.findingFor? h.place = none) →
      Reaches (chase registry n ix {} 0) last.place ∧
      ((∀ h ∈ passed, ix.Knows h.pointer) → Reaches (locate registry n ix {}) last.place)) ∧
    ((∀ h ∈ passed, ix.OffCircles h.place) → ∀ h ∈ passed, ix.findingFor? h.place = none) ∧
    ((∀ h ∈ passed, ix.Knows h.pointer) →
      (∃ h ∈ passed, ∃ f ∈ ix.findings, f.containsNode h.place = true) →
        ∃ l, locate registry n ix {} = .ok (some l) ∧ chase registry n ix {} 0 = .ok (some l) ∧
          l.onCycle = true ∧ (l.circular.isSome = true ↔ config.allowCircular = false)) := by
  have short : passed.length < maxHops := by
    rw [List.length_append] at short
    exact short
  refine ⟨fun clear => ⟨?_, fun known => ?_⟩, fun off h member => ?_, fun known met => ?_⟩
  · rw [chase_zero]
    exact chase_reaches registry ends trail short (Nat.le_pred_of_lt short) finds clear
  · exact locateWithin_reaches registry ends trail short known
      (fun h member => clear h member (known h member)) (finds last (by simp))
  · exact findingFor?_of_offCircles (off h member)
  · obtain ⟨h, member, listed⟩ := met
    obtain ⟨walk, _⟩ := trail_append trail
    have flagged := findingFor?_of_containsNode listed
    obtain ⟨l, found, on, policy⟩ := locateWithin_onCycle registry walk known
      ⟨h, member, isRef_of_mem_trail trail h member, flagged⟩ short.le
    -- A chase does not go on from a cycle.
    have stays : chase registry n (ofDocument config root) {} 0 = .ok (some l) := by
      rw [chase_zero, locate, found, ok_chaseOn, chaseOn, on]
      rfl
    exact ⟨l, found, stays, on, policy⟩

/-- From `start` the chain ends at a place with a reference inside that leads back to itself. From
`entry` it ends there too, but passes a place that holds a reference to itself. -/
def nested : Node := Build.runNew <| Build.object [
  ("start", Build.reference "#/next"),
  ("next", Build.reference "#/end"),
  ("end", Build.object [("round", Build.reference "#/end/round")]),
  ("step", Build.object [(referenceKey, Build.string "#/end"), ("own", Build.reference "#/step")]),
  ("entry", Build.reference "#/step")]

/-- The walk from a place of `nested` is a chain that ends, and its pointers are known. -/
theorem chain_of_nested : ∀ pointer ∈ ["#/start", "#/entry"],
    let ix := ofDocument {} nested
    ∃ last ∈ ix.plainWalk 2 (ix.placeAt pointer), last.place.isRef = false ∧
      ix.Trail (ix.placeAt pointer) ((ix.plainWalk 2 (ix.placeAt pointer)).dropLast ++ [last]) ∧
      ((ix.plainWalk 2 (ix.placeAt pointer)).dropLast ++ [last]).length ≤ maxHops ∧
      ∀ h ∈ (ix.plainWalk 2 (ix.placeAt pointer)).dropLast ++ [last], ix.Knows h.pointer := by
  intro pointer listed ix
  have all_end : ∀ pointer ∈ ["#/start", "#/entry"],
      (ix.plainWalk 2 (ix.placeAt pointer)).getLast?.any (fun h => !h.place.isRef) = true := by
    decide +kernel
  have all_short : ∀ pointer ∈ ["#/start", "#/entry"],
      (ix.plainWalk 2 (ix.placeAt pointer)).length ≤ maxHops := by decide +kernel
  have all_known : ∀ pointer ∈ ["#/start", "#/entry"],
      ∀ h ∈ ix.plainWalk 2 (ix.placeAt pointer), ix.Knows h.pointer := by decide +kernel
  obtain ⟨last, member, ends, rejoined⟩ := chain_of_plainWalk ix 2 _ (all_end pointer listed)
  refine ⟨last, member, ends, ?_⟩
  rw [rejoined]
  exact ⟨ix.trail_plainWalk 2 _, all_short pointer listed, all_known pointer listed⟩

theorem followed_to_end_nested :
    let ix := ofDocument {} nested
    (∃ last ∈ ix.plainWalk 2 (ix.placeAt "#/start"), last.place.isRef = false ∧
      Reaches (locate .alone (ix.placeAt "#/start") ix {}) last.place ∧
      Reaches (chase .alone (ix.placeAt "#/start") ix {} 0) last.place) ∧
    ∃ l, locate .alone (ix.placeAt "#/entry") ix {} = .ok (some l) ∧ l.onCycle = true ∧
      l.circular.isSome = true := by
  intro ix
  constructor
  · obtain ⟨last, member, ends, trail, short, known⟩ := chain_of_nested "#/start" (by simp)
    have clear : ∀ h ∈ (ix.plainWalk 2 (ix.placeAt "#/start")).dropLast,
        ix.findingFor? h.place = none := by decide +kernel
    obtain ⟨follows, _⟩ := followed_to_end {} nested .alone _ _ last trail short ends
      fun h there => .inl (known h there)
    obtain ⟨chased, located⟩ := follows fun h there _ => clear h there
    exact ⟨last, member, ends,
      located fun h there => known h (List.mem_append_left _ there), chased⟩
  · obtain ⟨last, member, ends, trail, short, known⟩ := chain_of_nested "#/entry" (by simp)
    have met : ∃ h ∈ (ix.plainWalk 2 (ix.placeAt "#/entry")).dropLast,
        ∃ f ∈ ix.findings, f.containsNode h.place = true := by decide +kernel
    obtain ⟨_, _, stops⟩ := followed_to_end {} nested .alone _ _ last trail short ends
      fun h there => .inl (known h there)
    obtain ⟨l, found, _, on, policy⟩ :=
      stops (fun h there => known h (List.mem_append_left _ there)) met
    exact ⟨l, found, on, policy.mpr rfl⟩

/-- From `start` the end is a round, and `next` names it; from `entry` a place on the way holds a
reference to itself; the texts of `odd` and `top` are aliases, and no table has their pointers. -/
def mistaken : Node := Build.runNew do
  let far ← Build.string "#//step"
  let whole ← Build.string "#/"
  Build.object [
    ("round", Build.object [("again", Build.reference "#/round")]),
    ("next", Build.reference "#/round"),
    ("start", Build.reference "#/next"),
    ("end", Build.object []),
    ("step", Build.object [(referenceKey, Build.string "#/end"), ("own", Build.reference "#/step")]),
    ("entry", Build.reference "#/step"),
    ("far", pure far),
    ("odd", Build.object [(referenceKey, Build.aliasTo far)]),
    ("whole", pure whole),
    ("top", Build.object [(referenceKey, Build.aliasTo whole)])]

/-- The result is an error or nothing, or lies on a cycle, or is a reference. -/
def isShort : Except RefError (Option Located) → Bool
  | .ok (some l) => l.onCycle || l.node.isRef
  | _ => true

theorem not_reaches_of_isShort {result : Except RefError (Option Located)} {n : Node}
    (stops : isShort result = true) (ends : n.isRef = false) : ¬ Reaches result n := by
  rintro ⟨l, rfl, node, off, _⟩
  have reference : l.node.isRef = true := by simpa [isShort, off] using stops
  simp only [Node.isRef, Node.refEntry?, node] at reference ends
  simp [reference] at ends

theorem end_not_reached :
    let ix := ofDocument {} mistaken
    ∀ pointer ∈ ["#/start", "#/entry", "#/odd", "#/top"],
      ∃ passed last, ix.Trail (ix.placeAt pointer) (passed ++ [last]) ∧
        (passed ++ [last]).length ≤ maxHops ∧ last.place.isRef = false ∧
        ¬ Reaches (locate .alone (ix.placeAt pointer) ix {}) last.place := by
  intro ix pointer listed
  have all_end : ∀ pointer ∈ ["#/start", "#/entry", "#/odd", "#/top"],
      (ix.plainWalk 2 (ix.placeAt pointer)).getLast?.any (fun h => !h.place.isRef) = true := by
    decide +kernel
  have all_fit : ∀ pointer ∈ ["#/start", "#/entry", "#/odd", "#/top"],
      (ix.plainWalk 2 (ix.placeAt pointer)).length ≤ maxHops := by decide +kernel
  have all_stop : ∀ pointer ∈ ["#/start", "#/entry", "#/odd", "#/top"],
      isShort (locate .alone (ix.placeAt pointer) ix {}) = true := by decide +kernel
  obtain ⟨last, _, ends, rejoined⟩ := chain_of_plainWalk ix 2 _ (all_end pointer listed)
  have trail := ix.trail_plainWalk 2 (ix.placeAt pointer)
  have fits := all_fit pointer listed
  rw [← rejoined] at trail fits
  exact ⟨_, last, trail, fits, ends, not_reaches_of_isShort (all_stop pointer listed) ends⟩

end DocRefs.Index
