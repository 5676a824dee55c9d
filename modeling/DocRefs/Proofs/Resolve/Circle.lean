import DocRefs.Proofs.Index.Consistent

/-!
# Circles of references

A pointer leads to another if some reference at or below the place that it designates has that other
pointer as its absolute form. That is said of the document alone: no table is asked and no cycle is
looked for. Every cycle that an index reports is a circle of such steps. So there is no finding for a
node that is on no circle and whose own reference names no pointer on one
(`findingFor?_of_offCircles`).
-/
namespace DocRefs.Index

open Relation

/-- A reference that is written where `source` leads has `target` as its absolute form. -/
def Leads (ix : Index) (source target : String) : Prop :=
  ∃ place, ix.designated? source = some place ∧ ix.Writes place target

def OnCircle (ix : Index) (pointer : String) : Prop := TransGen ix.Leads pointer pointer

/-- Neither the node nor what its own reference names is on a circle. -/
structure OffCircles (ix : Index) (n : Node) : Prop where
  itself : ∀ pointer place, ix.OnCircle pointer → ix.designated? pointer = some place →
    place.isSame n = false
  named : ∀ text, n.refText? = some text → ¬ ix.OnCircle (ix.absolute text)

section Build

variable {config : Config} {location : Option String} {registry : Option Registry} {root : Node}

/-- What a pointer into the document is mapped to is the place that it designates. -/
theorem designated?_of_firstMapped {pointer : String} {r : Reference}
    (inside : (build config location registry root).isLocal
      (Location.splitPointer pointer).1 = true)
    (found : (firstMapped config location registry root).get? pointer = some r) :
    (build config location registry root).designated? pointer = some r.node := by
  obtain ⟨_, _, place, there, node⟩ := firstMapped_local inside found
  rw [designated?, if_pos inside, there, node]
  rfl

/-- An edge of the graph is a step in the document. -/
theorem leads_of_edge {source target : String}
    (edge : (build config location registry root).references.Edge source target) :
    (build config location registry root).Leads source target := by
  obtain ⟨inside, r, found, below⟩ := edge_references_iff.mp edge
  exact ⟨r.node, designated?_of_firstMapped inside found,
    writes_iff.mpr (mem_pointersBelow.mp below).1⟩

theorem onCircle_of_onFirstLoop {pointer : String}
    (on : (build config location registry root).references.OnFirstLoop pointer) :
    (build config location registry root).OnCircle pointer := by
  obtain ⟨c, reported, member⟩ := (Graph.mem_reported_iff _ _).mpr on
  have cycle := ((Graph.mem_cycles_iff _ _).mp reported).isCycle
  exact TransGen.mono (fun _ _ => leads_of_edge) pointer pointer (cycle.transGen_of_mem member)

theorem findingFor?_of_offCircles {n : Node}
    (off : (build config location registry root).OffCircles n) :
    (build config location registry root).findingFor? n = none := by
  rw [← Option.not_isSome_iff_eq_none, findingFor?_isSome_iff]
  rintro (⟨pointer, on, r, found, same⟩ | ⟨text, written, on⟩)
  · obtain ⟨target, edge⟩ := on.edge
    obtain ⟨inside, _⟩ := edge_references_iff.mp edge
    have there := designated?_of_firstMapped inside found
    have other := off.itself pointer r.node (onCircle_of_onFirstLoop on) there
    exact absurd same (by simp [other])
  · exact off.named text written (onCircle_of_onFirstLoop on)

end Build

end DocRefs.Index
