/-!
# Translating in order

Items are translated, possibly out of order, and what comes of them is delivered strictly in order.
The collector holds back what came too early. The first failure that it meets, of translating or
of delivering, ends the work; what was delivered by then is a beginning of what would have been
delivered.
-/
namespace DocRefs

/-- What comes of an item: a value to deliver, or nothing. -/
inductive Yield (ω : Type) where
  | value (v : ω)
  | skip
  deriving DecidableEq, Repr

/-- Delivers a value, which may fail. -/
abbrev Sink (ω ε σ : Type) := ω → σ → Except ε σ

namespace Yield

variable {ω ε σ : Type}

/-- Delivers what came of an item. -/
def deliver (sink : Sink ω ε σ) (state : σ) : Yield ω → Except ε σ
  | value v => sink v state
  | skip => .ok state

end Yield

/-- What has been delivered and what is held back. -/
structure Collector (ω ε σ : Type) where
  /-- The number of the item that is due. -/
  next : Nat := 0
  /-- What came of later items. -/
  pending : List (Nat × Yield ω) := []
  sunk : σ
  failure : Option ε := none

namespace Collector

variable {ω ε σ : Type}

/-- Delivers what is due, for at most so many items. -/
def deliverDue (sink : Sink ω ε σ) : Nat → Collector ω ε σ → Collector ω ε σ
  | 0, c => c
  | turns + 1, c =>
    match c.pending.lookup c.next with
    | none => c
    | some yielded =>
      let rest := c.pending.filter (·.1 ≠ c.next)
      match yielded.deliver sink c.sunk with
      | .ok sunk => deliverDue sink turns { c with next := c.next + 1, pending := rest, sunk }
      | .error e => { c with next := c.next + 1, pending := rest, failure := some e }

/-- Takes what came of an item. After a failure nothing is taken. -/
def receive (sink : Sink ω ε σ) (c : Collector ω ε σ) (number : Nat)
    (outcome : Except ε (Yield ω)) : Collector ω ε σ :=
  if c.failure.isSome then c
  else match outcome with
    | .error e => { c with failure := some e }
    | .ok yielded =>
      let pending := (number, yielded) :: c.pending
      deliverDue sink pending.length { c with pending }

/-- Takes what came of items in the order of arrival. -/
def receiveAll (sink : Sink ω ε σ) (c : Collector ω ε σ)
    (arrivals : List (Nat × Except ε (Yield ω))) : Collector ω ε σ :=
  arrivals.foldl (fun c (number, outcome) => c.receive sink number outcome) c

/-- The state of the sink, and what went wrong. -/
def result (c : Collector ω ε σ) : σ × Option ε := (c.sunk, c.failure)

end Collector

/-- Translates and delivers one item after another. -/
def translateEach {ι ω ε σ : Type} (translate : ι → Except ε (Yield ω)) (sink : Sink ω ε σ) :
    List ι → σ → σ × Option ε
  | [], state => (state, none)
  | item :: rest, state =>
    match translate item with
    | .error e => (state, some e)
    | .ok yielded =>
      match yielded.deliver sink state with
      | .error e => (state, some e)
      | .ok state => translateEach translate sink rest state

/-- Translates items whose outcomes arrive in the order of the items, as they do from one worker. -/
def translateInOrder {ι ω ε σ : Type} (translate : ι → Except ε (Yield ω))
    (sink : Sink ω ε σ) (items : List ι) (state : σ) : σ × Option ε :=
  let arrivals := items.zipIdx.map fun (item, number) => (number, translate item)
  (Collector.receiveAll sink { sunk := state } arrivals).result

end DocRefs
