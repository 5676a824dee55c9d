import DocRefs.Error

/-!
# Partial results

A result that stands although something went wrong on the way, with the first thing that did.
-/
namespace DocRefs

structure Partial (α : Type) where
  value : α
  error : Option RefError := none
  deriving Repr

namespace Partial

variable {α β : Type}

def ok (value : α) : Partial α := ⟨value, none⟩

def failing (value : α) (error : RefError) : Partial α := ⟨value, some error⟩

def isOk (p : Partial α) : Bool := p.error.isNone

def map (f : α → β) (p : Partial α) : Partial β := ⟨f p.value, p.error⟩

/-- The value, if nothing went wrong. -/
def toExcept (p : Partial α) : Except RefError α :=
  match p.error with
  | some error => .error error
  | none => .ok p.value

@[simp] theorem map_id (p : Partial α) : p.map id = p := rfl

@[simp] theorem isOk_map (f : α → β) (p : Partial α) : (p.map f).isOk = p.isOk := rfl

theorem toExcept_eq_ok_iff {p : Partial α} {a : α} :
    p.toExcept = .ok a ↔ p = ok a := by
  obtain ⟨value, error⟩ := p
  cases error <;> simp [toExcept, ok]

end Partial

end DocRefs
