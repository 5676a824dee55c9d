import DocRefs.Extract.Partial

/-!
# Gathering results

Elements are built independently. What is built is kept in order; the first failure is reported, or
else the first cycle, one that was met on the way to the elements before all others.
-/
namespace DocRefs

/-- What became of one element: a value and a cycle that was met, or a failure. -/
abbrev Outcome (α : Type) := Except RefError (α × Option RefError)

namespace Outcome

variable {α : Type}

/-- The values that were built. -/
def built (outcomes : List (Outcome α)) : List α :=
  outcomes.filterMap fun
    | .ok (value, _) => some value
    | .error _ => none

def firstFailure? (outcomes : List (Outcome α)) : Option RefError :=
  outcomes.findSome? fun
    | .ok _ => none
    | .error e => some e

def firstCycle? (outcomes : List (Outcome α)) : Option RefError :=
  outcomes.findSome? fun
    | .ok (_, circular) => circular
    | .error _ => none

/-- The error to report for elements that were reached past the cycle `before`. -/
def error? (before : Option RefError) (outcomes : List (Outcome α)) : Option RefError :=
  (firstFailure? outcomes).or (before.or (firstCycle? outcomes))

end Outcome

end DocRefs
