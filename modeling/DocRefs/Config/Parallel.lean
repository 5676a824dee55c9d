/-!
# Degree of parallelism

How many workers translate the items of a list: as many as allowed, but no more than there are
items, and always at least one.
-/
namespace DocRefs

structure Parallel where
  enabled : Bool := true
  /-- The most workers to use; without it, as many as there are processors. -/
  maxWorkers : Option Nat := none
  deriving DecidableEq, Repr

namespace Parallel

instance : Inhabited Parallel := ⟨{}⟩

def sequential : Parallel := { enabled := false }

/-- The most workers to use on a machine with so many processors. -/
def limit (p : Parallel) (processors : Nat) : Nat :=
  if p.enabled then max 1 (p.maxWorkers.getD processors) else 1

/-- The workers for a list of so many items. -/
def workersFor (p : Parallel) (processors items : Nat) : Nat :=
  max 1 (min (p.limit processors) items)

theorem limit_pos (p : Parallel) (processors : Nat) : 0 < p.limit processors := by
  unfold limit; split <;> omega

theorem workersFor_pos (p : Parallel) (processors items : Nat) :
    0 < p.workersFor processors items := by
  unfold workersFor; omega

@[simp] theorem workersFor_sequential (processors items : Nat) :
    sequential.workersFor processors items = 1 := by
  have alone : sequential.limit processors = 1 := by simp [limit, sequential]
  unfold workersFor; omega

end Parallel

end DocRefs
