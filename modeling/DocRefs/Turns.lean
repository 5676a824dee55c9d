/-!
# Bounded loops

A loop over `Turns` runs its body at most a stated number of times and may leave early. The loops
of this library leave early on every input: each turn takes something from a finite supply (a
character, a token, a hop) whose size is the limit, so the bound only serves totality.
-/
namespace DocRefs

/-- The turns that a loop may take. -/
structure Turns where
  limit : Nat

namespace Turns

variable {m : Type u → Type v} [Monad m] {σ : Type u}

/-- Runs `body` from `state` until it says `done` or the turns are used up. -/
def run (body : Unit → σ → m (ForInStep σ)) : Nat → σ → m σ
  | 0, state => pure state
  | turns + 1, state => do
    match ← body () state with
    | .done final => pure final
    | .yield next => run body turns next

instance : ForIn m Turns Unit where
  forIn turns state body := run body turns.limit state

@[simp] theorem run_zero (body : Unit → σ → m (ForInStep σ)) (state : σ) :
    run body 0 state = pure state := rfl

theorem run_succ (body : Unit → σ → m (ForInStep σ)) (turns : Nat) (state : σ) :
    run body (turns + 1) state = (do
      match ← body () state with
      | .done final => pure final
      | .yield next => run body turns next) := rfl

end Turns

end DocRefs
