import DocRefs.Proofs.Resolve.Chain
import DocRefs.Proofs.Resolve.Route

/-!
# What is left to a search

Where the tables do not know a pointer, its path is walked in the document that was asked, and what
is found there is the location as it stands. Main result: `locate_unfollowed_iff`. A location off
every cycle is a reference exactly if it was found by such a search. A chase goes on from there, so
it never ends at a reference that could be followed (`chaseWithin_followed`).
-/
namespace DocRefs

variable {registry : Registry} {s : Stand} {l : Located}

/-- The last hop of the walk is left to a search, which finds the place. -/
def Stand.EndsInSearch (registry : Registry) (s : Stand) (l : Located) : Prop :=
  ∃ route, Route registry s route ∧ (∀ h ∈ route, h.Passes) ∧ route.length < maxHops ∧
    (s.after route).next? registry = none ∧ (s.after route).searched? = some l

theorem Stand.onCycle_of_searched? (found : s.searched? = some l) : l.onCycle = false := by
  obtain ⟨_, _, _, _, rfl⟩ := searched?_eq_some_iff.mp found
  rfl

theorem locate_of_endsInSearch (search : s.EndsInSearch registry l) :
    locate registry s.node s.index s.context = .ok (some l) := by
  obtain ⟨route, walk, passes, short, unknown, found⟩ := search
  obtain ⟨_, _, pointer, _⟩ := Stand.searched?_eq_some_iff.mp found
  obtain ⟨written, reads, _⟩ := Stand.pointer?_eq_some_iff.mp pointer
  obtain ⟨hops, budget⟩ := Nat.exists_eq_add_of_lt short
  have along := locateWithin_route (hops + 1) walk passes
  rw [locate, budget, show route.length + hops + 1 = hops + 1 + route.length by omega, along,
    locateWithin_of_rest hops reads (Stand.hop_of_searched unknown found reads)]

/-- A location that is a reference and on no cycle was found by a search: a place that the tables
know is passed or flagged if it is a reference. -/
theorem endsInSearch_of_locate {n : Node} {ix : Index} {context : Context}
    (located : locate registry n ix context = .ok (some l)) (off : l.onCycle = false)
    (reference : l.node.isRef = true) : (Stand.mk n ix context).EndsInSearch registry l := by
  obtain ⟨route, written, walk, passes, short, reads, last⟩ :=
    exists_route_of_locateWithin (s := ⟨n, ix, context⟩) located
  have step := Stand.step_hop registry reads
  rw [last] at step
  cases step with
  | rests _ plain => simp [reference] at plain
  | flagged _ _ _ => simp [Located.flagged] at off
  | searched unknown found => exact ⟨route, walk, passes, short, unknown, found⟩

/-- A location that is on no cycle is a reference exactly if the walk ended in a search and what it
found is one. -/
theorem locate_unfollowed_iff (registry : Registry) (n : Node) (ix : Index) (context : Context)
    (l : Located) :
    locate registry n ix context = .ok (some l) ∧ l.onCycle = false ∧ l.node.isRef = true ↔
      (Stand.mk n ix context).EndsInSearch registry l ∧ l.node.isRef = true := by
  constructor
  · rintro ⟨located, off, reference⟩
    exact ⟨endsInSearch_of_locate located off reference, reference⟩
  · rintro ⟨search, reference⟩
    obtain ⟨_, _, _, _, _, found⟩ := id search
    exact ⟨locate_of_endsInSearch search, Stand.onCycle_of_searched? found, reference⟩

/-- A search finds the reference `next` for `odd`, because no table has the text of `far`. -/
def doubleSlash : Node := Build.runNew do
  let far ← Build.string "#//next"
  Build.object [
    ("far", pure far),
    ("next", Build.reference "#/end"),
    ("end", Build.object []),
    ("odd", Build.object [(referenceKey, Build.aliasTo far)])]

def isUnfollowed : Except RefError (Option Located) → Bool
  | .ok (some l) => !l.onCycle && l.node.isRef
  | _ => false

theorem locate_unfollowed_doubleSlash :
    let ix := Index.ofDocument {} doubleSlash
    ∃ l, locate .alone (ix.placeAt "#/odd") ix {} = .ok (some l) ∧ l.onCycle = false ∧
      l.node.isRef = true := by
  intro ix
  have unfollowed : isUnfollowed (locate .alone (ix.placeAt "#/odd") ix {}) = true := by
    decide +kernel
  unfold isUnfollowed at unfollowed
  split at unfollowed
  next l found =>
    obtain ⟨off, reference⟩ := Bool.and_eq_true_iff.mp unfollowed
    exact ⟨l, found, by simpa using off, reference⟩
  · simp at unfollowed

/-! ### Chases -/

/-- A chase ends at a node that is no reference, or on a cycle. -/
theorem chaseWithin_followed {hops : Nat} {n : Node} {ix : Index} {context : Context}
    (found : chaseWithin registry hops n ix context = .ok (some l)) :
    l.onCycle = true ∨ l.node.isRef = false := by
  induction hops generalizing n ix context with
  | zero => simp [chaseWithin] at found
  | succ hops ih =>
    rw [Index.chaseWithin_succ] at found
    cases first : locateWithin registry (hops + 1) n ix context with
    | error e => simp [first, Index.error_chaseOn] at found
    | ok here? =>
      rw [first, Index.ok_chaseOn] at found
      cases here? with
      | none => simp [Index.chaseOn] at found
      | some here =>
        by_cases rest : (here.onCycle || !here.node.isRef) = true
        · rw [Index.chaseOn, if_pos rest] at found
          obtain rfl : here = l := Option.some.inj (Except.ok.inj found)
          simpa using rest
        · rw [Index.chaseOn, if_neg rest] at found
          exact ih found

theorem chaseWithin_congr {a b : Node} (same : a.refEntry? = b.refEntry?) (hops : Nat) (ix : Index)
    (context : Context) :
    chaseWithin registry hops a ix context = chaseWithin registry hops b ix context := by
  cases hops with
  | zero => rfl
  | succ hops => rw [Index.chaseWithin_succ, Index.chaseWithin_succ, locateWithin_congr same]

/-- A chase from a reference never comes to nothing. -/
theorem isRef_eq_false_of_chaseWithin {hops : Nat} {n : Node} {ix : Index} {context : Context}
    (nothing : chaseWithin registry hops n ix context = .ok none) : n.isRef = false := by
  induction hops generalizing n ix context with
  | zero => simp [chaseWithin] at nothing
  | succ hops ih =>
    rw [Index.chaseWithin_succ] at nothing
    cases found : locateWithin registry (hops + 1) n ix context with
    | error e => simp [found, Index.error_chaseOn] at nothing
    | ok here? =>
      rw [found, Index.ok_chaseOn] at nothing
      cases here? with
      | none => exact isRef_eq_false_of_locateWithin (s := ⟨n, ix, context⟩) found
      | some here =>
        by_cases rest : (here.onCycle || !here.node.isRef) = true
        · rw [Index.chaseOn, if_pos rest] at nothing
          simp at nothing
        · rw [Index.chaseOn, if_neg rest] at nothing
          simp [ih nothing] at rest

/-- With more hops a chase stays what it is, unless it ran out of them. -/
theorem chaseWithin_mono {hops more : Nat} (le : hops ≤ more) {n : Node} {ix : Index}
    {context : Context} (enough : chaseWithin registry hops n ix context ≠ .error .depthExceeded) :
    chaseWithin registry more n ix context = chaseWithin registry hops n ix context := by
  induction hops generalizing more n ix context with
  | zero => exact absurd rfl enough
  | succ hops ih =>
    obtain ⟨more, rfl⟩ := Nat.exists_eq_add_of_le' (Nat.le_trans (Nat.succ_pos hops) le)
    rw [Index.chaseWithin_succ] at enough
    have first : locateWithin registry (hops + 1) n ix context ≠ .error .depthExceeded :=
      fun deep => enough (by rw [deep, Index.error_chaseOn])
    rw [Index.chaseWithin_succ, Index.chaseWithin_succ, locateWithin_mono le first]
    cases found : locateWithin registry (hops + 1) n ix context with
    | error e => simp [Index.error_chaseOn]
    | ok here? =>
      rw [found, Index.ok_chaseOn] at enough
      rw [Index.ok_chaseOn, Index.ok_chaseOn]
      cases here? with
      | none => rfl
      | some here =>
        unfold Index.chaseOn at enough ⊢
        dsimp only at enough ⊢
        split
        · rfl
        next onward =>
          rw [if_neg onward] at enough
          exact ih (Nat.le_of_succ_le_succ le) enough

end DocRefs
