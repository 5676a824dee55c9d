import DocRefs.Proofs.Resolve.Searched

/-!
# Along a trail to its end

Resolution takes the hops of a trail one by one, in any context that does not lead away from the
document. On a trail that ends at a node that is no reference, it does not run out of hops, and it
comes to rest at places of the trail only (`locateWithin_trail`); a chase comes to rest at the end
(`chaseWithin_trail`).
-/
namespace DocRefs.Index

/-- Where a walk from a node ends. -/
def endOf (n : Node) (passed : List Hop) : Node := (passed.getLast?.map Hop.place).getD n

@[simp] theorem endOf_nil (n : Node) : endOf n [] = n := rfl

@[simp] theorem endOf_cons (n : Node) (h : Hop) (rest : List Hop) :
    endOf n (h :: rest) = endOf h.place rest := by
  cases rest <;> simp [endOf, List.getLast?_cons]

theorem endOf_append (n : Node) (front : List Hop) (h : Hop) (rest : List Hop) :
    endOf n (front ++ h :: rest) = endOf h.place rest := by
  induction front generalizing n with
  | nil => simp
  | cons first front ih => simpa using ih first.place

theorem Trail.eq_nil {ix : Index} {n : Node} {passed : List Hop} (trail : ix.Trail n passed)
    (plain : n.isRef = false) : passed = [] := by
  cases trail with
  | stay n => rfl
  | hop next later => simp [isRef_of_plainHop? next] at plain

/-- References in the context are read as those without one. -/
def Suits (ix : Index) (context : Context) : Prop :=
  context.document.or ix.location = ix.location

/-- The place of a hop, when resolution rests there. -/
def arrivalAt (ix : Index) (context : Context) (h : Hop) : Located :=
  { node := h.place, index := ix, context, pointer := h.pointer }

theorem pointerIn_of_suits {ix : Index} {context : Context} (suits : ix.Suits context)
    (text : String) : ix.pointerIn context text = ix.absolute text := by
  rw [pointerIn, suits, absolute]

section Alone

variable {config : Config} {root : Node} (registry : Registry) {context : Context} {n : Node}
  {h : Hop} {passed : List Hop}

theorem pointer?_of_plainHop? (suits : (ofDocument config root).Suits context)
    (plain : (ofDocument config root).plainHop? n = some h) :
    (Stand.mk n (ofDocument config root) context).pointer? = some h.pointer := by
  obtain ⟨key, written, entry, text, pointer, _⟩ := plainHop?_eq_some plain
  refine Stand.pointer?_eq_some_iff.mpr ⟨written, by simp [Stand.written?, entry], text, ?_⟩
  rw [pointerIn_of_suits suits, pointer]

theorem next?_of_knows (suits : (ofDocument config root).Suits context)
    (plain : (ofDocument config root).plainHop? n = some h)
    (known : (ofDocument config root).Knows h.pointer) :
    (Stand.mk n (ofDocument config root) context).next? registry =
      some ((ofDocument config root).arrivalAt context h) := by
  obtain ⟨_, _, _, _, _, there⟩ := plainHop?_eq_some plain
  obtain ⟨r, answers, node⟩ := answer?_of_knows registry context there known
  refine Stand.next?_eq_some_iff.mpr ⟨_, _, pointer?_of_plainHop? suits plain, answers, ?_⟩
  simp [arrivalAt, node]

theorem next?_of_not_knows (suits : (ofDocument config root).Suits context)
    (plain : (ofDocument config root).plainHop? n = some h)
    (unknown : ¬ (ofDocument config root).Knows h.pointer) :
    (Stand.mk n (ofDocument config root) context).next? registry = none := by
  obtain ⟨_, _, _, _, _, there⟩ := plainHop?_eq_some plain
  simp [Stand.next?, pointer?_of_plainHop? suits plain,
    answer?_of_not_knows registry context there unknown]

theorem searched?_of_finds (suits : (ofDocument config root).Suits context)
    (plain : (ofDocument config root).plainHop? n = some h)
    (unknown : ¬ (ofDocument config root).Knows h.pointer)
    (finds : (ofDocument config root).Finds h.pointer) :
    (Stand.mk n (ofDocument config root) context).searched? =
      some ((ofDocument config root).arrivalAt context h) := by
  obtain ⟨_, _, _, _, _, there⟩ := plainHop?_eq_some plain
  have search := search?_of_not_knows there unknown (finds.resolve_left unknown)
  exact Stand.searched?_eq_some_iff.mpr
    ⟨_, _, pointer?_of_plainHop? suits plain, search, rfl⟩

/-! ### Single hops in a context -/

/-- A known reference without findings is passed. -/
theorem locateWithin_onward (hops : Nat) (clear : (ofDocument config root).findings = [])
    (suits : (ofDocument config root).Suits context)
    (plain : (ofDocument config root).plainHop? n = some h)
    (known : (ofDocument config root).Knows h.pointer) (reference : h.place.isRef = true) :
    locateWithin registry (hops + 1) n (ofDocument config root) context =
      locateWithin registry hops h.place (ofDocument config root) context := by
  have next := next?_of_knows registry suits plain known
  obtain ⟨written, reads⟩ := Stand.exists_written (Stand.isRef_of_next? next)
  have passes : ((ofDocument config root).arrivalAt context h).Passes :=
    ⟨reference, findingFor?_eq_none clear h.place⟩
  exact locateWithin_of_pass hops reads (Stand.hop_of_passes next passes reads)

/-- Anything else that is found is a place to rest at. -/
theorem locateWithin_arrival (hops : Nat) (suits : (ofDocument config root).Suits context)
    (plain : (ofDocument config root).plainHop? n = some h)
    (finds : (ofDocument config root).Finds h.pointer)
    (rests : (ofDocument config root).Knows h.pointer → h.place.isRef = false) :
    locateWithin registry (hops + 1) n (ofDocument config root) context =
      .ok (some ((ofDocument config root).arrivalAt context h)) := by
  obtain ⟨written, reads⟩ := Stand.exists_written
    (s := ⟨n, ofDocument config root, context⟩) (isRef_of_plainHop? plain)
  by_cases known : (ofDocument config root).Knows h.pointer
  · have next := next?_of_knows registry suits plain known
    exact locateWithin_of_rest hops reads (Stand.hop_of_plain next (rests known) reads)
  · have unknown := next?_of_not_knows registry suits plain known
    have found := searched?_of_finds suits plain known finds
    exact locateWithin_of_rest hops reads (Stand.hop_of_searched unknown found reads)

theorem locateWithin_nowhere (hops : Nat) (suits : (ofDocument config root).Suits context)
    (plain : (ofDocument config root).plainHop? n = some h)
    (lost : ¬ (ofDocument config root).Finds h.pointer) :
    ∃ text position, locateWithin registry (hops + 1) n (ofDocument config root) context =
      .error (.notFound text position) := by
  obtain ⟨unknown, no_path⟩ := not_or.mp lost
  obtain ⟨key, written, entry, text, _⟩ := plainHop?_eq_some plain
  have reads : (Stand.mk n (ofDocument config root) context).written? = some written := by
    simp [Stand.written?, entry]
  have nothing : (Stand.mk n (ofDocument config root) context).searched? = none := by
    simp [Stand.searched?, pointer?_of_plainHop? suits plain, search?, not_not.mp no_path]
  have unanswered := next?_of_not_knows registry suits plain unknown
  exact ⟨_, _, locateWithin_of_error hops reads
    (Stand.hop_of_lost unanswered nothing reads text)⟩

/-! ### Whole trails -/

/-- Where a trail ends at a node that is no reference, a location stays on it. -/
theorem locateWithin_trail {hops : Nat} (clear : (ofDocument config root).findings = [])
    (suits : (ofDocument config root).Suits context)
    (trail : (ofDocument config root).Trail n passed) (ends : (endOf n passed).isRef = false)
    (enough : passed.length ≤ hops) :
    passed = [] ∧ locateWithin registry hops n (ofDocument config root) context = .ok none ∨
      (∃ e, locateWithin registry hops n (ofDocument config root) context = .error e ∧
        e ≠ .depthExceeded) ∨
      ∃ front h rest, passed = front ++ h :: rest ∧ (ofDocument config root).Trail h.place rest ∧
        locateWithin registry hops n (ofDocument config root) context =
          .ok (some ((ofDocument config root).arrivalAt context h)) := by
  induction trail generalizing hops with
  | stay n => exact .inl ⟨rfl, locateWithin_of_not_ref registry hops _ context ends⟩
  | @hop n h rest plain later ih =>
    refine .inr ?_
    obtain ⟨hops, rfl⟩ := Nat.exists_eq_add_of_le' (Nat.le_trans (Nat.succ_pos _) enough)
    by_cases finds : (ofDocument config root).Finds h.pointer
    · by_cases onward : (ofDocument config root).Knows h.pointer ∧ h.place.isRef = true
      · obtain ⟨known, reference⟩ := onward
        rw [locateWithin_onward registry hops clear suits plain known reference]
        rw [endOf_cons] at ends
        rcases ih ends (Nat.le_of_succ_le_succ enough) with ⟨rfl, _⟩ | fails | rests
        · simp [reference] at ends
        · exact .inl fails
        · obtain ⟨front, last, behind, rfl, trail, found⟩ := rests
          exact .inr ⟨h :: front, last, behind, rfl, trail, found⟩
      · have rests (known : (ofDocument config root).Knows h.pointer) : h.place.isRef = false := by
          simpa [known] using onward
        have found := locateWithin_arrival registry hops suits plain finds rests
        exact .inr ⟨[], h, rest, rfl, later, found⟩
    · obtain ⟨text, position, fails⟩ := locateWithin_nowhere registry hops suits plain finds
      exact .inl ⟨_, fails, by simp⟩

theorem locateWithin_ne_depthExceeded {hops : Nat} (clear : (ofDocument config root).findings = [])
    (suits : (ofDocument config root).Suits context)
    (trail : (ofDocument config root).Trail n passed) (ends : (endOf n passed).isRef = false)
    (enough : passed.length ≤ hops) :
    locateWithin registry hops n (ofDocument config root) context ≠ .error .depthExceeded := by
  rcases locateWithin_trail registry clear suits trail ends enough with
    ⟨_, none_there⟩ | ⟨e, fails, other⟩ | ⟨_, _, _, _, _, found⟩
  · simp [none_there]
  · simpa [fails] using other
  · simp [found]

/-- Where a trail ends at a node that is no reference, a chase along it fails or gets there. -/
theorem chaseWithin_trail {hops : Nat} (clear : (ofDocument config root).findings = [])
    (suits : (ofDocument config root).Suits context)
    (trail : (ofDocument config root).Trail n passed) (ends : (endOf n passed).isRef = false)
    (enough : passed.length ≤ hops) (positive : 0 < hops) :
    passed = [] ∧ chaseWithin registry hops n (ofDocument config root) context = .ok none ∨
      (∃ e, chaseWithin registry hops n (ofDocument config root) context = .error e ∧
        e ≠ .depthExceeded) ∨
      ∃ front h, passed = front ++ [h] ∧
        chaseWithin registry hops n (ofDocument config root) context =
          .ok (some ((ofDocument config root).arrivalAt context h)) := by
  -- On the hops and not on the trail: one location may take several hops of it.
  induction hops generalizing n passed with
  | zero => exact absurd positive (Nat.not_lt_zero _)
  | succ hops ih =>
    rw [chaseWithin_succ]
    rcases locateWithin_trail registry clear suits trail ends enough with
      ⟨rfl, none_there⟩ | ⟨e, fails, other⟩ | ⟨front, h, rest, rfl, later, found⟩
    · exact .inl ⟨rfl, by rw [none_there]; rfl⟩
    · exact .inr (.inl ⟨e, by rw [fails]; rfl, other⟩)
    · refine .inr ?_
      rw [found, ok_chaseOn]
      rw [endOf_append] at ends
      cases reference : h.place.isRef with
      | false =>
        obtain rfl := later.eq_nil reference
        exact .inr ⟨front, h, rfl, by simp [chaseOn, arrivalAt, reference]⟩
      | true =>
        -- A search found the reference, and the chase goes on with one hop less.
        have onward : chaseOn registry hops (some ((ofDocument config root).arrivalAt context h)) =
            chaseWithin registry hops h.place (ofDocument config root) context := by
          simp [chaseOn, arrivalAt, reference]
        have short : rest.length ≤ hops := by
          rw [List.length_append, List.length_cons] at enough
          omega
        have some_left : 0 < hops := by
          by_contra none_left
          obtain rfl : rest = [] := List.length_eq_zero_iff.mp (by omega)
          simp [reference] at ends
        rw [onward]
        rcases ih later ends short some_left with ⟨rfl, _⟩ | fails | ⟨behind, last, rfl, arrives⟩
        · simp [reference] at ends
        · exact .inl fails
        · exact .inr ⟨front ++ h :: behind, last, by simp, arrives⟩

theorem chaseWithin_ne_depthExceeded {hops : Nat} (clear : (ofDocument config root).findings = [])
    (suits : (ofDocument config root).Suits context)
    (trail : (ofDocument config root).Trail n passed) (ends : (endOf n passed).isRef = false)
    (enough : passed.length ≤ hops) (positive : 0 < hops) :
    chaseWithin registry hops n (ofDocument config root) context ≠ .error .depthExceeded := by
  rcases chaseWithin_trail registry clear suits trail ends enough positive
    with ⟨_, none_there⟩ | ⟨e, fails, other⟩ | ⟨_, _, _, found⟩
  · simp [none_there]
  · simpa [fails] using other
  · simp [found]

end Alone

end DocRefs.Index
