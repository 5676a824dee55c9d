/-!
# Pools

A pool keeps things that are not in use, cleared, to be used again. It keeps no more than `capacity`
of them; what comes back beyond that is dropped. A loan is a thing in use under a number: it comes
back to the pool at the end, unless it is taken out for good, which leaves the loan detached.
-/
namespace DocRefs

/-- Clearing a thing for its next use. -/
class Clear (α : Type) where
  clear : α → α

instance : Clear String := ⟨fun _ => ""⟩

structure Pool (α : Type) where
  idle : List α := []
  deriving Repr

namespace Pool

variable {α : Type}

def capacity : Nat := 64

/-- The thing that came back last, or a new one. -/
def take [Inhabited α] (p : Pool α) : α × Pool α :=
  match p.idle with
  | [] => (default, p)
  | item :: rest => (item, ⟨rest⟩)

/-- Brings a thing back. -/
def give [Clear α] (p : Pool α) (item : α) : Pool α :=
  if p.idle.length < capacity then ⟨Clear.clear item :: p.idle⟩ else p

def size (p : Pool α) : Nat := p.idle.length

theorem size_take [Inhabited α] (p : Pool α) : p.take.2.size = p.size - 1 := by
  obtain ⟨idle⟩ := p
  cases idle <;> rfl

theorem size_give [Clear α] (p : Pool α) (item : α) :
    (p.give item).size = if p.size < capacity then p.size + 1 else p.size := by
  unfold give size; split <;> rfl

variable {p : Pool α}

/-- What is taken is new or was idle. -/
theorem take_cases [Inhabited α] (p : Pool α) : p.take.1 = default ∨ p.take.1 ∈ p.idle := by
  obtain ⟨idle⟩ := p
  cases idle with
  | nil => exact .inl rfl
  | cons item rest => exact .inr (List.mem_cons_self ..)

theorem mem_of_mem_take [Inhabited α] {item : α} (member : item ∈ p.take.2.idle) :
    item ∈ p.idle := by
  obtain ⟨idle⟩ := p
  cases idle with
  | nil => exact member
  | cons first rest => exact List.mem_cons_of_mem _ member

theorem mem_give [Clear α] {used item : α} (member : item ∈ (p.give used).idle) :
    item = Clear.clear used ∨ item ∈ p.idle := by
  unfold give at member
  split at member
  · exact List.mem_cons.mp member
  · exact .inr member

end Pool

/-- A thing in use. Once it is detached it does not come back to the pool. -/
structure Loan (α : Type) where
  item : α
  detached : Bool := false
  deriving Repr

namespace Loan

variable {α : Type}

/-- Takes the thing out for good; a new one is left in its place. -/
def take [Inhabited α] (loan : Loan α) : α × Loan α :=
  (loan.item, { item := default, detached := true })

/-- Ends the use. -/
def finish [Clear α] (loan : Loan α) (p : Pool α) : Pool α :=
  if loan.detached then p else p.give loan.item

def change (loan : Loan α) (f : α → α) : Loan α := { loan with item := f loan.item }

end Loan

/-- A pool with the things in use. -/
structure Lending (α : Type) where
  pool : Pool α := {}
  loans : List (Nat × Loan α) := []

namespace Lending

variable {α : Type}

/-- The thing in use under a number. -/
def loan? (l : Lending α) (number : Nat) : Option α := (l.loans.lookup number).map (·.item)

/-- The loans other than one. -/
def others (l : Lending α) (number : Nat) : List (Nat × Loan α) :=
  l.loans.filter (·.1 ≠ number)

/-- Ends a loan; the thing goes back to the pool. -/
def giveBack [Clear α] (l : Lending α) (number : Nat) : Lending α :=
  match l.loans.lookup number with
  | some loan => ⟨loan.finish l.pool, l.others number⟩
  | none => l

/-- Ends a loan; the thing is kept. -/
def keep [Inhabited α] [Clear α] (l : Lending α) (number : Nat) : Option α × Lending α :=
  match l.loans.lookup number with
  | some loan =>
    let (item, spent) := loan.take
    (some item, ⟨spent.finish l.pool, l.others number⟩)
  | none => (none, l)

/-- Lends a thing under a number. A thing that was lent under it goes back afterwards. -/
def lend [Inhabited α] [Clear α] (l : Lending α) (number : Nat) : α × Lending α :=
  let (item, pool) := l.pool.take
  let ended := giveBack { l with pool } number
  (item, { ended with loans := (number, { item }) :: ended.loans })

/-- Changes a thing in use. -/
def change (l : Lending α) (number : Nat) (f : α → α) : Lending α :=
  { l with loans := l.loans.map fun (n, loan) => (n, if n = number then loan.change f else loan) }

end Lending

end DocRefs
