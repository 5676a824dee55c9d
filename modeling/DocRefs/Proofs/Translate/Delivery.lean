import DocRefs.Table
import DocRefs.Translate

/-!
# Delivery in order of number

What a collector has delivered is always a beginning of what goes one item after another, in
whatever order the outcomes arrive.

## Main results

* `Collector.Follows.receive`: one more outcome, in any order, keeps the collector in step with the
  items, or stops it after a beginning of them.
* `translateInOrder_eq_translateEach`: outcomes that arrive in order are delivered as they come.
-/
namespace DocRefs

variable {ι ω ε σ : Type} {translate : ι → Except ε (Yield ω)} {sink : Sink ω ε σ}

/-! ### One item after another -/

theorem translateEach_append {front : List ι} (back : List ι) {state sunk : σ}
    (delivered : translateEach translate sink front state = (sunk, none)) :
    translateEach translate sink (front ++ back) state =
      translateEach translate sink back sunk := by
  induction front generalizing state with
  | nil =>
    cases delivered
    rfl
  | cons item front ih =>
    simp only [translateEach, List.cons_append] at delivered ⊢
    cases outcome : translate item with
    | error e => simp [outcome] at delivered
    | ok yielded =>
      simp only [outcome] at delivered ⊢
      cases one : yielded.deliver sink state with
      | error e => simp [one] at delivered
      | ok next =>
        simp only [one] at delivered ⊢
        exact ih delivered

theorem translated_of_translateEach {front : List ι} {state sunk : σ}
    (delivered : translateEach translate sink front state = (sunk, none)) :
    ∀ item ∈ front, ∃ yielded, translate item = .ok yielded := by
  induction front generalizing state with
  | nil => simp
  | cons item front ih =>
    simp only [translateEach] at delivered
    cases outcome : translate item with
    | error e => simp [outcome] at delivered
    | ok yielded =>
      simp only [outcome] at delivered
      cases one : yielded.deliver sink state with
      | error e => simp [one] at delivered
      | ok next =>
        simp only [one] at delivered
        exact List.forall_mem_cons.mpr ⟨⟨yielded, outcome⟩, ih delivered⟩

theorem translateEach_singleton {item : ι} {yielded : Yield ω}
    (outcome : translate item = .ok yielded) (state : σ) :
    translateEach translate sink [item] state =
      match yielded.deliver sink state with
      | .ok sunk => (sunk, none)
      | .error e => (state, some e) := by
  simp only [translateEach, outcome]
  cases yielded.deliver sink state <;> rfl

/-- Only a value can fail to be delivered. -/
theorem Yield.deliver_eq_error {yielded : Yield ω} {state : σ} {e : ε}
    (failed : yielded.deliver sink state = .error e) :
    ∃ value, yielded = .value value ∧ sink value state = .error e := by
  cases yielded with
  | value value => exact ⟨value, rfl, failed⟩
  | skip => cases failed

namespace Collector

/-! ### Outcomes that are held back -/

private theorem lookup_cons_ne {α : Type} {number : Nat} {entry : Nat × α} (held : List (Nat × α))
    (other : number ≠ entry.1) : (entry :: held).lookup number = held.lookup number := by
  rw [List.lookup_cons, beq_eq_false_iff_ne.mpr other]

private theorem length_drop_due_lt {α : Type} {due : Nat} {held : List (Nat × α)} {value : α}
    (found : held.lookup due = some value) :
    (held.filter (·.1 ≠ due)).length < held.length := by
  rw [List.length_filter_lt_length_iff_exists]
  obtain ⟨front, back, split, _⟩ := List.lookup_eq_some_iff.mp found
  exact ⟨(due, value), by simp [split], by simp⟩

/-! ### In step with the items -/

variable {items : List ι} {state : σ} {arrived : List Nat} {c : Collector ω ε σ}

variable (translate sink items state) in
/-- The collector has taken exactly the outcomes of the items with those numbers, all of them
good, and has delivered without failure those up to the one that is due. -/
structure Follows (arrived : List Nat) (c : Collector ω ε σ) : Prop where
  fine : c.failure = none
  sunk : translateEach translate sink (items.take c.next) state = (c.sunk, none)
  earlier : ∀ number < c.next, number ∈ arrived
  good : ∀ number ∈ arrived, ∃ item yielded,
    items[number]? = some item ∧ translate item = .ok yielded
  held : ∀ number yielded, c.pending.lookup number = some yielded ↔
    number ∈ arrived ∧ c.next ≤ number ∧
      ∃ item, items[number]? = some item ∧ translate item = .ok yielded

variable (translate sink items state) in
/-- The collector has met a failure after delivering a beginning of the items: of an item that could
not be translated, or of the delivery of the next one. -/
def Stopped (c : Collector ω ε σ) : Prop :=
  ∃ e front, c.failure = some e ∧ front <+: items ∧
    translateEach translate sink front state = (c.sunk, none) ∧
    ((∃ item ∈ items, translate item = .error e) ∨
      ∃ item value, front ++ [item] <+: items ∧ translate item = .ok (.value value) ∧
        sink value c.sunk = .error e)

theorem follows_start :
    Follows translate sink items state [] ({ sunk := state } : Collector ω ε σ) where
  fine := rfl
  sunk := by simp [translateEach]
  earlier := by simp
  good := by simp
  held := by simp

namespace Follows

theorem next_le (follows : Follows translate sink items state arrived c) :
    c.next ≤ items.length := by
  refine Nat.not_lt.mp fun beyond => ?_
  obtain ⟨item, _, here, _⟩ := follows.good _ (follows.earlier items.length beyond)
  simp at here

/-- More items do not matter. -/
theorem append (follows : Follows translate sink items state arrived c) (more : List ι) :
    Follows translate sink (items ++ more) state arrived c where
  fine := follows.fine
  sunk := by rw [List.take_append_of_le_length follows.next_le]; exact follows.sunk
  earlier := follows.earlier
  good := fun number member => by
    obtain ⟨item, yielded, here, outcome⟩ := follows.good number member
    obtain ⟨bound, _⟩ := List.getElem?_eq_some_iff.mp here
    exact ⟨item, yielded, by rw [List.getElem?_append_left bound, here], outcome⟩
  held := fun number yielded => by
    rw [follows.held]
    refine and_congr_right fun member => ?_
    obtain ⟨item, _, here, _⟩ := follows.good number member
    obtain ⟨bound, _⟩ := List.getElem?_eq_some_iff.mp here
    rw [List.getElem?_append_left bound]

/-- What arrived and is due is held back. -/
theorem held_of_due (follows : Follows translate sink items state arrived c)
    (due : c.next ∈ arrived) : ∃ yielded, c.pending.lookup c.next = some yielded := by
  obtain ⟨item, yielded, here, outcome⟩ := follows.good _ due
  exact ⟨yielded, (follows.held _ _).mpr ⟨due, Nat.le_refl _, item, here, outcome⟩⟩

theorem park (follows : Follows translate sink items state arrived c) {number : Nat} {item : ι}
    {yielded : Yield ω} (here : items[number]? = some item) (outcome : translate item = .ok yielded)
    (fresh : number ∉ arrived) :
    Follows translate sink items state (number :: arrived)
      { c with pending := (number, yielded) :: c.pending } where
  fine := follows.fine
  sunk := follows.sunk
  earlier := fun other less => List.mem_cons_of_mem _ (follows.earlier other less)
  good := List.forall_mem_cons.mpr ⟨⟨item, yielded, here, outcome⟩, follows.good⟩
  held := fun other found => by
    have later : c.next ≤ number := Nat.not_lt.mp fun less => fresh (follows.earlier number less)
    -- The number is new, so what is held under the others is what was held before.
    by_cases same : other = number
    · subst same
      simp [here, outcome, later]
    · simp only [List.mem_cons, same, false_or]
      rw [lookup_cons_ne c.pending same, follows.held]

theorem advance (follows : Follows translate sink items state arrived c) {yielded : Yield ω}
    (due : c.pending.lookup c.next = some yielded) {sunk : σ}
    (delivered : yielded.deliver sink c.sunk = .ok sunk) :
    Follows translate sink items state arrived
      { c with next := c.next + 1, pending := c.pending.filter (·.1 ≠ c.next), sunk } := by
  obtain ⟨member, _, item, here, outcome⟩ := (follows.held _ _).mp due
  refine ⟨follows.fine, ?_, ?_, follows.good, ?_⟩
  · rw [List.take_add_one, here, Option.toList_some, translateEach_append _ follows.sunk,
      translateEach_singleton outcome, delivered]
  · intro number less
    obtain less | rfl := Nat.lt_succ_iff_lt_or_eq.mp less
    · exact follows.earlier number less
    · exact member
  · intro number found
    -- Only what was due is let go, and its number is now behind the cursor.
    by_cases same : number = c.next
    · subst same
      have passed : ¬ c.next + 1 ≤ c.next := by omega
      simp only [lookup_filter_self, passed]
      simp
    · have later : c.next ≤ number ↔ c.next + 1 ≤ number := by omega
      rw [lookup_filter_ne same, follows.held, later]

/-- Delivering what is due ends at an item that has not arrived, or at a failure. The number of
outcomes held back bounds the deliveries. -/
theorem deliverDue (follows : Follows translate sink items state arrived c) {turns : Nat}
    (enough : c.pending.length ≤ turns) :
    (Follows translate sink items state arrived (deliverDue sink turns c) ∧
        (c.deliverDue sink turns).next ∉ arrived) ∨
      Stopped translate sink items state (c.deliverDue sink turns) := by
  -- Each delivery takes one of the outcomes that are held back and leaves a turn less.
  induction turns generalizing c with
  | zero =>
    refine .inl ⟨follows, fun due => ?_⟩
    obtain ⟨yielded, found⟩ := follows.held_of_due due
    rw [List.eq_nil_of_length_eq_zero (Nat.le_zero.mp enough)] at found
    cases found
  | succ turns ih =>
    simp only [Collector.deliverDue]
    cases found : c.pending.lookup c.next with
    | none =>
      refine .inl ⟨follows, fun due => ?_⟩
      obtain ⟨yielded, held⟩ := follows.held_of_due due
      rw [held] at found
      cases found
    | some yielded =>
      simp only
      cases delivered : yielded.deliver sink c.sunk with
      | ok sunk =>
        have fewer := length_drop_due_lt found
        exact ih (follows.advance found delivered) (by simp only; omega)
      | error e =>
        obtain ⟨_, _, item, here, outcome⟩ := (follows.held _ _).mp found
        obtain ⟨value, rfl, failed⟩ := Yield.deliver_eq_error delivered
        refine .inr ⟨e, items.take c.next, rfl, List.take_prefix _ _, follows.sunk,
          .inr ⟨item, value, ?_, outcome, failed⟩⟩
        have next : items.take c.next ++ [item] = items.take (c.next + 1) := by
          rw [List.take_add_one, here, Option.toList_some]
        rw [next]
        exact List.take_prefix _ _

/-- The collector takes the outcome of any item whose outcome it has not taken yet. -/
theorem receive (follows : Follows translate sink items state arrived c) {number : Nat} {item : ι}
    (here : items[number]? = some item) (fresh : number ∉ arrived) :
    (Follows translate sink items state (number :: arrived)
        (c.receive sink number (translate item)) ∧
        (c.receive sink number (translate item)).next ∉ number :: arrived) ∨
      Stopped translate sink items state (c.receive sink number (translate item)) := by
  have going : c.failure.isSome = false := by simp [follows.fine]
  simp only [Collector.receive, going, Bool.false_eq_true, if_false]
  cases outcome : translate item with
  | error e =>
    exact .inr ⟨e, items.take c.next, rfl, List.take_prefix _ _, follows.sunk,
      .inl ⟨item, List.mem_of_getElem? here, outcome⟩⟩
  | ok yielded => exact (follows.park here outcome fresh).deliverDue (Nat.le_refl _)

/-- With every item's outcome taken, the items are delivered. -/
theorem delivers_all (follows : Follows translate sink items state arrived c)
    (waits : c.next ∉ arrived) (all : ∀ number < items.length, number ∈ arrived) :
    translateEach translate sink items state = (c.sunk, none) := by
  have done : items.length ≤ c.next := Nat.not_lt.mp fun less => waits (all _ less)
  rw [← follows.sunk, List.take_of_length_le done]

end Follows

namespace Stopped

theorem append (stopped : Stopped translate sink items state c) (more : List ι) :
    Stopped translate sink (items ++ more) state c := by
  obtain ⟨e, front, failure, start, sunk, cause⟩ := stopped
  refine ⟨e, front, failure, start.trans (List.prefix_append _ _), sunk, ?_⟩
  obtain ⟨item, member, failed⟩ | ⟨item, value, next, outcome, failed⟩ := cause
  · exact .inl ⟨item, List.mem_append_left _ member, failed⟩
  · exact .inr ⟨item, value, next.trans (List.prefix_append _ _), outcome, failed⟩

/-- Where every item can be translated, the collector stops where going one after another does. -/
theorem result_eq (stopped : Stopped translate sink items state c)
    (good : ∀ item ∈ items, ∃ yielded, translate item = .ok yielded) :
    c.result = translateEach translate sink items state := by
  obtain ⟨e, front, failure, _, sunk, cause⟩ := stopped
  obtain ⟨item, member, failed⟩ | ⟨item, value, ⟨back, split⟩, outcome, failed⟩ := cause
  · obtain ⟨yielded, outcome⟩ := good item member
    rw [failed] at outcome
    cases outcome
  · -- One after another comes to the same item in the same state.
    rw [← split, List.append_assoc, translateEach_append _ sunk]
    simp [translateEach, outcome, Yield.deliver, failed, result, failure]

end Stopped

/-! ### Outcomes that arrive in order -/

theorem receiveAll_of_failed (c : Collector ω ε σ) (arrivals : List (Nat × Except ε (Yield ω)))
    (failed : c.failure.isSome = true) : c.receiveAll sink arrivals = c := by
  induction arrivals with
  | nil => rfl
  | cons arrival arrivals ih =>
    simp only [receiveAll, List.foldl_cons, receive, failed, if_true] at ih ⊢
    exact ih

theorem receiveAll_in_order (items : List ι) (next : Nat) (state : σ) :
    (receiveAll sink { next, sunk := state }
        ((items.zipIdx next).map fun p => (p.2, translate p.1))).result =
      translateEach translate sink items state := by
  -- What arrives is due, so nothing is ever left to be held back.
  induction items generalizing next state with
  | nil => rfl
  | cons item items ih =>
    simp only [List.zipIdx_cons, List.map_cons, receiveAll, List.foldl_cons, translateEach] at ih ⊢
    cases outcome : translate item with
    | error e => exact congrArg result (receiveAll_of_failed _ _ rfl)
    | ok yielded =>
      cases delivered : yielded.deliver sink state with
      | error e =>
        have stopped : receive sink { next, sunk := state } next (.ok yielded) =
            ({ next := next + 1, sunk := state, failure := some e } : Collector ω ε σ) := by
          simp [receive, deliverDue, delivered]
        simp only [stopped, delivered]
        exact congrArg result (receiveAll_of_failed _ _ rfl)
      | ok sunk =>
        have on : receive sink { next, sunk := state } next (.ok yielded) =
            ({ next := next + 1, sunk } : Collector ω ε σ) := by
          simp [receive, deliverDue, delivered]
        simp only [on, delivered]
        exact ih (next + 1) sunk

end Collector

theorem translateInOrder_eq_translateEach (items : List ι) (state : σ) :
    translateInOrder translate sink items state = translateEach translate sink items state :=
  Collector.receiveAll_in_order items 0 state

end DocRefs
