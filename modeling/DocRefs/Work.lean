/-!
# What is being worked on

The phase and the document in hand. Entering gives a guard that remembers what was in hand before;
leaving by a guard restores exactly that, whatever was entered since.
-/
namespace DocRefs

inductive Phase where
  | indexing
  | cycleDetection
  | resolving
  | extraction
  deriving DecidableEq, Repr

def Phase.name : Phase → String
  | indexing => "indexing"
  | cycleDetection => "cycle_detection"
  | resolving => "resolving"
  | extraction => "extraction"

structure Work where
  phase : Option Phase := none
  document : Option String := none
  deriving DecidableEq, Repr, Inhabited

namespace Work

/-- Remembers the work to go back to. -/
structure Guard where
  previous : Work
  deriving DecidableEq, Repr, Inhabited

def enterPhase (w : Work) (phase : Phase) : Work × Guard :=
  ({ w with phase := some phase }, ⟨w⟩)

def enterDocument (w : Work) (location : String) : Work × Guard :=
  ({ w with document := some location }, ⟨w⟩)

def leave (guard : Guard) : Work := guard.previous

/-- The phase, the document, or both with an at sign between them. -/
def label (w : Work) : String :=
  match w.phase, w.document with
  | some phase, some document => phase.name ++ "@" ++ document
  | some phase, none => phase.name
  | none, some document => document
  | none, none => "-"

@[simp] theorem leave_enterPhase (w : Work) (phase : Phase) :
    leave (w.enterPhase phase).2 = w := rfl

@[simp] theorem leave_enterDocument (w : Work) (location : String) :
    leave (w.enterDocument location).2 = w := rfl

end Work

end DocRefs
