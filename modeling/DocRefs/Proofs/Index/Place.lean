import DocRefs.Index.Build
import DocRefs.Proofs.Fragment.Written
import DocRefs.Proofs.Node.Reach

/-!
# Places of a document

A place stands where the path to it leads (`Place.at_of_mem_below`), so every node that a catalogue
knows, by its tables or by a walk, is one that the document's root reaches. Where the keys of every
mapping are different, so are the fragments of places (`Place.nodup_below`).
-/
namespace DocRefs

/-- The place is at or below a node that has a fragment and a key itself. -/
inductive Place.At : String → Option Node → Node → Place → Prop
  | here (fragment : String) (key : Option Node) (n : Node) : At fragment key n ⟨fragment, n, key⟩
  | value {fragment : String} {key : Option Node} {info : NodeInfo} {pairs : List (Node × Node)}
    {k v : Node} {place : Place} (member : (k, v) ∈ pairs)
    (deeper : At (fragment ++ "/" ++ Fragment.escape k.text) (some k) v place) :
    At fragment key (.mapping info pairs) place
  | item {fragment : String} {key : Option Node} {info : NodeInfo} {items : List Node}
    {position : Nat} {n : Node} {place : Place} (there : items[position]? = some n)
    (deeper : At (fragment ++ "/" ++ toString position) none n place) :
    At fragment key (.sequence info items) place

namespace Place

mutual

theorem at_of_mem_below {fragment : String} {key : Option Node} {place : Place} :
    (n : Node) → place ∈ below fragment key n → At fragment key n place
  | .mapping info pairs, member => by
    rw [below] at member
    rcases List.mem_cons.mp member with rfl | deeper
    · exact .here _ _ _
    · obtain ⟨k, v, there, place_at⟩ := at_of_mem_belowPairs pairs deeper
      exact .value there place_at
  | .sequence info items, member => by
    rw [below] at member
    rcases List.mem_cons.mp member with rfl | deeper
    · exact .here _ _ _
    · obtain ⟨position, n, there, place_at⟩ := at_of_mem_belowItems items 0 deeper
      exact .item there (by simpa using place_at)
  | .scalar _ _, member => by
    obtain rfl := List.mem_singleton.mp (by simpa [below] using member)
    exact .here _ _ _
  | .document _ _, member => by
    obtain rfl := List.mem_singleton.mp (by simpa [below] using member)
    exact .here _ _ _
  | .aliasTo _ _, member => by
    obtain rfl := List.mem_singleton.mp (by simpa [below] using member)
    exact .here _ _ _

theorem at_of_mem_belowPairs {fragment : String} {place : Place} :
    (pairs : List (Node × Node)) → place ∈ belowPairs fragment pairs →
      ∃ k v, (k, v) ∈ pairs ∧ At (fragment ++ "/" ++ Fragment.escape k.text) (some k) v place
  | [], member => by simp [belowPairs] at member
  | (k, v) :: rest, member => by
    rw [belowPairs] at member
    rcases List.mem_append.mp member with first | later
    · exact ⟨k, v, by simp, at_of_mem_below v first⟩
    · obtain ⟨k', v', there, place_at⟩ := at_of_mem_belowPairs rest later
      exact ⟨k', v', List.mem_cons_of_mem _ there, place_at⟩

theorem at_of_mem_belowItems {fragment : String} {place : Place} :
    (items : List Node) → (position : Nat) → place ∈ belowItems fragment position items →
      ∃ i n, items[i]? = some n ∧ At (fragment ++ "/" ++ toString (position + i)) none n place
  | [], _, member => by simp [belowItems] at member
  | n :: rest, position, member => by
    rw [belowItems] at member
    rcases List.mem_append.mp member with first | later
    · exact ⟨0, n, rfl, at_of_mem_below n first⟩
    · obtain ⟨i, m, there, place_at⟩ := at_of_mem_belowItems rest (position + 1) later
      exact ⟨i + 1, m, there, by rwa [Nat.add_assoc, Nat.add_comm 1 i] at place_at⟩

end

theorem At.reaches {fragment : String} {key : Option Node} {n : Node} {place : Place}
    (place_at : At fragment key n place) : n.Reaches place.node := by
  induction place_at with
  | here fragment key n => exact .refl n
  | value member _ ih => exact (Node.reaches_value member).trans ih
  | item there _ ih => exact (Node.reaches_item (List.mem_of_getElem? there)).trans ih

theorem belowPairs_eq (fragment : String) (pairs : List (Node × Node)) :
    belowPairs fragment pairs = pairs.flatMap fun pair =>
      below (fragment ++ "/" ++ Fragment.escape pair.1.text) (some pair.1) pair.2 := by
  induction pairs with
  | nil => rfl
  | cons pair rest ih => rw [belowPairs, ih, List.flatMap_cons]

/-! ### Fragments of places -/

theorem At.written {fragment : String} {key : Option Node} {n : Node} {place : Place}
    (place_at : At fragment key n place) :
    ∃ path, place.fragment = fragment ++ Fragment.ofSegments path := by
  induction place_at with
  | here fragment key n => exact ⟨[], by simp [Fragment.ofSegments]⟩
  | @value fragment key info pairs k v place _ _ ih =>
    obtain ⟨path, written⟩ := ih
    exact ⟨k.text :: path, by simp only [written, Fragment.ofSegments_cons, String.append_assoc]⟩
  | @item fragment key info items position n place _ _ ih =>
    obtain ⟨path, written⟩ := ih
    refine ⟨toString position :: path, ?_⟩
    simp only [written, Fragment.ofSegments_cons, Fragment.escape_toString, String.append_assoc]

theorem written_of_mem_belowPairs {fragment : String} {pairs : List (Node × Node)} {place : Place}
    (member : place ∈ belowPairs fragment pairs) :
    ∃ segment ∈ pairs.map (·.1.text), ∃ path,
      place.fragment = fragment ++ Fragment.ofSegments (segment :: path) := by
  obtain ⟨k, v, there, place_at⟩ := at_of_mem_belowPairs pairs member
  obtain ⟨path, written⟩ := place_at.written
  refine ⟨k.text, List.mem_map.mpr ⟨(k, v), there, rfl⟩, path, ?_⟩
  simp only [written, Fragment.ofSegments_cons, String.append_assoc]

theorem written_of_mem_belowItems {fragment : String} {position : Nat} {items : List Node}
    {place : Place} (member : place ∈ belowItems fragment position items) :
    ∃ i path, place.fragment =
      fragment ++ Fragment.ofSegments (toString (position + i) :: path) := by
  obtain ⟨i, n, _, place_at⟩ := at_of_mem_belowItems items position member
  obtain ⟨path, written⟩ := place_at.written
  refine ⟨i, path, ?_⟩
  simp only [written, Fragment.ofSegments_cons, Fragment.escape_toString, String.append_assoc]

/-- Fragments that begin with different segments are different. -/
theorem segment_eq {fragment segment other : String} {path rest : List String}
    (same : fragment ++ Fragment.ofSegments (segment :: path) =
      fragment ++ Fragment.ofSegments (other :: rest)) : segment = other :=
  (List.cons.inj (Fragment.ofSegments_injective ((String.append_right_inj fragment).mp same))).1

/-- A fragment is not that of anything below it. -/
theorem fragment_ne (fragment segment : String) (path : List String) :
    fragment ≠ fragment ++ Fragment.ofSegments (segment :: path) := by
  intro same
  have lengths := congrArg String.length same
  rw [Fragment.ofSegments_cons] at lengths
  simp only [String.length_append] at lengths
  have slash : "/".length = 1 := by decide
  omega

mutual

/-- Where no key stands twice in a mapping, no two places have the same fragment. -/
theorem nodup_below (fragment : String) (key : Option Node) :
    (n : Node) → n.DistinctKeys → ((below fragment key n).map (·.fragment)).Nodup
  | .mapping info pairs, distinct => by
    rw [below, List.map_cons, List.nodup_cons]
    constructor
    · intro again
      obtain ⟨place, member, same⟩ := List.mem_map.mp again
      obtain ⟨segment, _, path, written⟩ := written_of_mem_belowPairs member
      exact fragment_ne fragment segment path (same.symm.trans written)
    · apply nodup_belowPairs fragment pairs distinct.here
      exact fun pair member => distinct.of_reaches (Node.reaches_value member)
  | .sequence info items, distinct => by
    rw [below, List.map_cons, List.nodup_cons]
    constructor
    · intro again
      obtain ⟨place, member, same⟩ := List.mem_map.mp again
      obtain ⟨i, path, written⟩ := written_of_mem_belowItems member
      exact fragment_ne fragment _ path (same.symm.trans written)
    · apply nodup_belowItems fragment 0 items
      exact fun item member => distinct.of_reaches (Node.reaches_item member)
  | .scalar _ _, _ => by simp [below]
  | .document _ _, _ => by simp [below]
  | .aliasTo _ _, _ => by simp [below]

theorem nodup_belowPairs (fragment : String) : (pairs : List (Node × Node)) →
    (pairs.map (·.1.text)).Nodup → (∀ pair ∈ pairs, pair.2.DistinctKeys) →
      ((belowPairs fragment pairs).map (·.fragment)).Nodup
  | [], _, _ => by simp [belowPairs]
  | (k, v) :: rest, texts, distinct => by
    obtain ⟨fresh, texts_rest⟩ := List.nodup_cons.mp texts
    obtain ⟨first, later⟩ := List.forall_mem_cons.mp distinct
    rw [belowPairs, List.map_append, List.nodup_append]
    refine ⟨nodup_below _ (some k) v first, nodup_belowPairs fragment rest texts_rest later, ?_⟩
    intro a here b there
    obtain ⟨place, member, rfl⟩ := List.mem_map.mp here
    obtain ⟨place', member', rfl⟩ := List.mem_map.mp there
    -- The segments behind the fragment are the keys.
    have first_of : place ∈ belowPairs fragment [(k, v)] := by simpa [belowPairs] using member
    obtain ⟨segment, listed, path, written⟩ := written_of_mem_belowPairs first_of
    obtain ⟨segment', listed', path', written'⟩ := written_of_mem_belowPairs member'
    intro same
    obtain rfl := segment_eq (written.symm.trans (same.trans written'))
    obtain rfl : segment = k.text := by simpa using listed
    exact fresh listed'

theorem nodup_belowItems (fragment : String) (position : Nat) : (items : List Node) →
    (∀ item ∈ items, item.DistinctKeys) →
      ((belowItems fragment position items).map (·.fragment)).Nodup
  | [], _ => by simp [belowItems]
  | item :: rest, distinct => by
    obtain ⟨first, later⟩ := List.forall_mem_cons.mp distinct
    rw [belowItems, List.map_append, List.nodup_append]
    refine ⟨nodup_below _ none item first, nodup_belowItems fragment (position + 1) rest later, ?_⟩
    intro a here b there
    obtain ⟨place, member, rfl⟩ := List.mem_map.mp here
    obtain ⟨place', member', rfl⟩ := List.mem_map.mp there
    obtain ⟨path, written⟩ := (at_of_mem_below item member).written
    obtain ⟨i, path', written'⟩ := written_of_mem_belowItems member'
    have first_of : place.fragment =
        fragment ++ Fragment.ofSegments (toString position :: path) := by
      simp only [written, Fragment.ofSegments_cons, Fragment.escape_toString, String.append_assoc]
    intro same
    have numbers := toString_injective (segment_eq (first_of.symm.trans (same.trans written')))
    omega

end

end Place

namespace Catalog

variable {location : Option String} {root : Node} {fragment : String} {r : Reference}

theorem exists_place_of_get? (found : (ofDocument location root).places.get? fragment = some r) :
    ∃ place : Place, place.fragment = fragment ∧ r.node = place.node ∧
      Place.At "" none root.unwrapDocument place := by
  obtain ⟨place, member, same⟩ := List.mem_map.mp (Table.mem_of_get?_ofList found)
  obtain ⟨rfl, rfl⟩ := Prod.mk.inj same
  exact ⟨place, rfl, rfl, Place.at_of_mem_below _ member⟩

theorem reaches_of_get? (found : (ofDocument location root).places.get? fragment = some r) :
    root.Reaches r.node := by
  obtain ⟨place, _, node, place_at⟩ := exists_place_of_get? found
  rw [node]
  exact (Node.reaches_unwrapDocument root).trans place_at.reaches

theorem reaches_of_find? (found : (ofDocument location root).find? fragment = some r) :
    root.Reaches r.node := by
  unfold find? at found
  rcases Option.or_eq_some_iff.mp found with place | ⟨_, walked⟩
  · exact reaches_of_get? place
  · obtain ⟨node, walked, same⟩ := Option.bind_eq_some_iff.mp walked
    rw [← Option.some.inj same]
    exact (Node.reaches_unwrapDocument root).trans (Node.reaches_atSegments? walked)

end Catalog

end DocRefs
