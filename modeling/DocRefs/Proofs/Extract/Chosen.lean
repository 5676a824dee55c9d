import DocRefs.Extract.Field
import DocRefs.OrderedMap

/-!
# The key that a field is found under

A field is looked for under the spellings of its name, in the order in which they are preferred, and
for each among the keys of the mapping: first for a key that is the spelling, and only when there is
none for any spelling, for one that agrees with it up to case. So an exact key is found by its
spelling alone (`Node.findField?_congr`), while among keys that only agree the order of the mapping
decides as well. Main result: `field_chosen`.
-/
namespace DocRefs

/-! ### Searches -/

section

variable {κ α : Type}

theorem findSome?_filter (keep : κ → Bool) (find : κ → Option α) (keys : List κ) :
    (keys.filter keep).findSome? find =
      keys.findSome? fun key => if keep key then find key else none := by
  induction keys with
  | nil => rfl
  | cons key rest ih => cases kept : keep key <;> simp [List.findSome?_cons, kept, ih]

/-- What is there for the second time is never the first for which something is found. -/
theorem findSome?_eraseDups [BEq κ] [LawfulBEq κ] (find : κ → Option α) (keys : List κ) :
    keys.eraseDups.findSome? find = keys.findSome? find := by
  induction keys using OrderedMap.eraseDups_induction with
  | nil => rfl
  | cons first rest ih =>
    rw [List.eraseDups_cons, List.findSome?_cons, List.findSome?_cons, ih, findSome?_filter]
    cases missing : find first with
    | some a => rfl
    | none =>
      -- Nothing is found for the first one, so it can as well be left out further on.
      have same : (fun key => if !key == first then find key else none) = find := by
        funext key
        by_cases again : key = first <;> simp [again, missing]
      rw [same]

end

/-! ### Spellings -/

namespace Naming

/-- The spellings of a name, the preferred ones first: as it is, in camel case, in Pascal case, with
hyphens, with underscores, and with underscores and capitals. -/
def spellings (name : String) : List String :=
  [id, camel, pascal, kebab, snake, screaming].map fun spell => String.ofList (spell name.toList)

/-- Of the spellings that something holds of, the preferred one. An empty spelling does not count. -/
structure IsPreferred (P : String → Prop) (name spelling : String) : Prop where
  holds : P spelling
  solid : spelling ≠ ""
  first : ∃ before after, spellings name = before ++ spelling :: after ∧
    ∀ other ∈ before, other ≠ "" → ¬ P other

theorem IsPreferred.mem {P : String → Prop} {name spelling : String}
    (preferred : IsPreferred P name spelling) : spelling ∈ spellings name := by
  obtain ⟨before, after, split, _⟩ := preferred.first
  rw [split]
  exact List.mem_append_right _ List.mem_cons_self

theorem IsPreferred.congr {P Q : String → Prop} {name spelling : String}
    (preferred : IsPreferred P name spelling) (same : ∀ s ∈ spellings name, P s ↔ Q s) :
    IsPreferred Q name spelling := by
  obtain ⟨before, after, split, others⟩ := preferred.first
  have listed : ∀ other ∈ before, other ∈ spellings name := fun other member => by
    rw [split]
    exact List.mem_append_left _ member
  refine ⟨(same spelling preferred.mem).mp preferred.holds, preferred.solid, before, after, split,
    fun other member solid holds => ?_⟩
  exact others other member solid ((same other (listed other member)).mpr holds)

variable {α : Type}

/-- Nothing is found for a spelling that is empty or was there before. -/
theorem findSome?_variants (name : String) (find : String → Option α) :
    ((variants name.toList).map String.ofList).findSome? find =
      (spellings name).findSome? fun spelling => if spelling = "" then none else find spelling := by
  have empty (spelling : List Char) : String.ofList spelling = "" ↔ spelling = [] := by
    rw [← String.toList_inj, String.toList_ofList]
    rfl
  have spelled : spellings name =
      ([name.toList, camel name.toList, pascal name.toList, kebab name.toList, snake name.toList,
        screaming name.toList]).map String.ofList := rfl
  rw [List.findSome?_map, variants, findSome?_eraseDups, findSome?_filter, spelled,
    List.findSome?_map]
  congr 1
  funext spelling
  by_cases none_there : spelling = [] <;> simp [none_there, empty]

theorem findSome?_variants_eq_some_iff {name : String} {find : String → Option α} {a : α} :
    ((variants name.toList).map String.ofList).findSome? find = some a ↔
      ∃ spelling, IsPreferred (fun s => (find s).isSome = true) name spelling ∧
        find spelling = some a := by
  rw [findSome?_variants, List.findSome?_eq_some_iff]
  constructor
  · rintro ⟨before, spelling, after, split, found, missing⟩
    obtain ⟨solid, found⟩ : spelling ≠ "" ∧ find spelling = some a := by simpa using found
    refine ⟨spelling, ⟨by simp [found], solid, before, after, split, ?_⟩, found⟩
    intro other member other_solid
    simpa [other_solid] using missing other member
  · rintro ⟨spelling, ⟨_, solid, before, after, split, missing⟩, found⟩
    refine ⟨before, spelling, after, split, by simp [solid, found], fun other member => ?_⟩
    by_cases other_solid : other = ""
    · simp [other_solid]
    · simpa [other_solid] using missing other member other_solid

theorem isSome_findSome?_variants_iff {name : String} {find : String → Option α} :
    (((variants name.toList).map String.ofList).findSome? find).isSome = true ↔
      ∃ spelling ∈ spellings name, spelling ≠ "" ∧ (find spelling).isSome = true := by
  rw [findSome?_variants, List.findSome?_isSome_iff]
  refine exists_congr fun spelling => and_congr_right fun _ => ?_
  by_cases none_there : spelling = "" <;> simp [none_there]

theorem findSome?_variants_eq_none_iff {name : String} {find : String → Option α} :
    ((variants name.toList).map String.ofList).findSome? find = none ↔
      ∀ spelling ∈ spellings name, spelling ≠ "" → find spelling = none := by
  rw [findSome?_variants, List.findSome?_eq_none_iff]
  simp

end Naming

open Naming (spellings IsPreferred)

/-! ### Keys -/

namespace Node

/-- The text is a key of the mapping. -/
def HasKey (n : Node) (text : String) : Prop := ∃ pair ∈ n.pairs, pair.1.text = text

/-- The text is a key of the mapping up to case. -/
def HasKeyFold (n : Node) (text : String) : Prop :=
  ∃ pair ∈ n.pairs, Text.equalFold pair.1.text text = true

/-- The first pair in document order whose key is the text up to case. -/
def IsFirstFold (n : Node) (text : String) (pair : Node × Node) : Prop :=
  ∃ before after, n.pairs = before ++ pair :: after ∧ Text.equalFold pair.1.text text = true ∧
    ∀ other ∈ before, Text.equalFold other.1.text text = false

variable {n : Node}

theorem isSome_findKey?_iff {text : String} : (n.findKey? text).isSome = true ↔ n.HasKey text := by
  simp [findKey?, List.find?_isSome, HasKey]

theorem isSome_findKeyFold?_iff {text : String} :
    (n.findKeyFold? text).isSome = true ↔ n.HasKeyFold text := by
  simp [findKeyFold?, List.find?_isSome, HasKeyFold]

theorem findKeyFold?_eq_some_iff {text : String} {pair : Node × Node} :
    n.findKeyFold? text = some pair ↔ n.IsFirstFold text pair := by
  rw [findKeyFold?, List.find?_eq_some_iff_append]
  constructor
  · rintro ⟨same, before, after, split, others⟩
    exact ⟨before, after, split, same, by simpa using others⟩
  · rintro ⟨before, after, split, same, others⟩
    exact ⟨same, before, after, split, by simpa using others⟩

theorem HasKey.fold {text : String} (has : n.HasKey text) : n.HasKeyFold text := by
  obtain ⟨pair, member, rfl⟩ := has
  exact ⟨pair, member, Text.equalFold_refl _⟩

/-- The pair that a field of this name is taken from. -/
inductive IsChosen (n : Node) (name : String) (pair : Node × Node) : Prop
  /-- Its key is the preferred spelling that is a key at all. -/
  | exact (member : pair ∈ n.pairs) (preferred : IsPreferred n.HasKey name pair.1.text)
  /-- No spelling is a key, and its key is the first that is the preferred one up to case. -/
  | folded {spelling : String}
    (none_exact : ∀ other ∈ spellings name, other ≠ "" → ¬ n.HasKey other)
    (preferred : IsPreferred n.HasKeyFold name spelling) (first : n.IsFirstFold spelling pair)

theorem findField?_eq_some_iff (distinct : (n.pairs.map (·.1.text)).Nodup) {name : String}
    {pair : Node × Node} : n.findField? name = some pair ↔ n.IsChosen name pair := by
  rw [findField?, Option.or_eq_some_iff, Naming.findSome?_variants_eq_some_iff,
    Naming.findSome?_variants_eq_some_iff, Naming.findSome?_variants_eq_none_iff]
  -- As keys are distinct, the pair found under a spelling is the only one with that key.
  simp only [isSome_findKey?_iff, isSome_findKeyFold?_iff, findKey?_eq_some_iff distinct,
    findKeyFold?_eq_some_iff]
  constructor
  · rintro (⟨spelling, preferred, member, rfl⟩ | ⟨missing, spelling, preferred, first⟩)
    · exact .exact member preferred
    · refine .folded (fun other listed solid has => ?_) preferred first
      simp [← isSome_findKey?_iff, missing other listed solid] at has
  · rintro (⟨member, preferred⟩ | ⟨none_exact, preferred, first⟩)
    · exact .inl ⟨_, preferred, member, rfl⟩
    · refine .inr ⟨fun other listed solid => ?_, _, preferred, first⟩
      rw [← Option.not_isSome_iff_eq_none, isSome_findKey?_iff]
      exact none_exact other listed solid

/-- A field is found if a spelling of its name is a key up to case. -/
theorem isSome_findField?_iff (n : Node) (name : String) :
    (n.findField? name).isSome = true ↔
      ∃ spelling ∈ spellings name, spelling ≠ "" ∧ n.HasKeyFold spelling := by
  rw [findField?, Option.isSome_or, Bool.or_eq_true, Naming.isSome_findSome?_variants_iff,
    Naming.isSome_findSome?_variants_iff]
  simp only [isSome_findKey?_iff, isSome_findKeyFold?_iff]
  constructor
  · rintro (⟨spelling, listed, solid, has⟩ | folded)
    · exact ⟨spelling, listed, solid, has.fold⟩
    · exact folded
  · exact .inr

/-- Where a spelling is a key, only the pairs under spellings count. -/
theorem findField?_congr {m : Node} {name : String} (distinct : (n.pairs.map (·.1.text)).Nodup)
    (distinct_too : (m.pairs.map (·.1.text)).Nodup)
    (some_exact : ∃ spelling ∈ spellings name, spelling ≠ "" ∧ n.HasKey spelling)
    (same : ∀ pair : Node × Node, pair.1.text ∈ spellings name →
      (pair ∈ m.pairs ↔ pair ∈ n.pairs)) :
    m.findField? name = n.findField? name := by
  have found : ∀ spelling ∈ spellings name, m.findKey? spelling = n.findKey? spelling := by
    intro spelling listed
    refine Option.ext fun pair => ?_
    rw [findKey?_eq_some_iff distinct, findKey?_eq_some_iff distinct_too]
    exact and_congr_left fun named => same pair (named ▸ listed)
  -- The search for exact keys ends with one, so the other search is not made.
  have ends : (((Naming.variants name.toList).map String.ofList).findSome? n.findKey?).isSome =
      true := by
    simpa only [Naming.isSome_findSome?_variants_iff, isSome_findKey?_iff] using some_exact
  obtain ⟨pair, here⟩ := Option.isSome_iff_exists.mp ends
  have there : ((Naming.variants name.toList).map String.ofList).findSome? m.findKey? =
      some pair := by
    obtain ⟨spelling, preferred, under⟩ := Naming.findSome?_variants_eq_some_iff.mp here
    refine Naming.findSome?_variants_eq_some_iff.mpr ⟨spelling, ?_, ?_⟩
    · exact preferred.congr fun s listed => by rw [found s listed]
    · rw [found spelling preferred.mem, under]
  rw [findField?, findField?, here, there]
  rfl

end Node

/-- A field is found in a mapping with distinct keys exactly if some spelling of its name is a key up
to case. If one is a key, it is found under the preferred one of those, whatever the other keys are
and in whatever order all of them stand; otherwise under the first key that is the preferred
spelling up to case. -/
theorem field_chosen (n : Node) (name : String) (distinct : (n.pairs.map (·.1.text)).Nodup) :
    ((n.findField? name).isSome = true ↔
        ∃ spelling ∈ spellings name, spelling ≠ "" ∧ n.HasKeyFold spelling) ∧
      (∀ pair, n.findField? name = some pair ↔ n.IsChosen name pair) ∧
      ((∃ spelling ∈ spellings name, spelling ≠ "" ∧ n.HasKey spelling) →
        ∀ m : Node, (m.pairs.map (·.1.text)).Nodup →
          (∀ pair : Node × Node, pair.1.text ∈ spellings name →
            (pair ∈ m.pairs ↔ pair ∈ n.pairs)) →
          m.findField? name = n.findField? name) :=
  ⟨n.isSome_findField?_iff name, fun _ => Node.findField?_eq_some_iff distinct,
    fun some_exact _ distinct_too same =>
      Node.findField?_congr distinct distinct_too some_exact same⟩

/-- Three keys for one name: one that only agrees with a spelling, and two spellings. -/
def rivalKeys : Node := Build.runNew do
  Build.mapping [(← Build.string "FIRSTNAME", ← Build.string "one"),
    (← Build.string "first-name", ← Build.string "two"),
    (← Build.string "firstName", ← Build.string "three")]

/-- Camel case is preferred to hyphens, and either to a key that only agrees up to case, in whichever
direction the keys stand. -/
theorem field_chosen_rivals :
    (rivalKeys.pairs.map (·.1.text)).Nodup ∧ rivalKeys.HasKey "first-name" ∧
      ∃ pair, rivalKeys.IsChosen "first_name" pair ∧ pair.1.text = "firstName" ∧
        (Node.mapping rivalKeys.info rivalKeys.pairs.reverse).findField? "first_name" =
          some pair := by
  have distinct : (rivalKeys.pairs.map (·.1.text)).Nodup := by decide +kernel
  have hyphens : rivalKeys.HasKey "first-name" :=
    Node.isSome_findKey?_iff.mp (by decide +kernel)
  obtain ⟨_, chosen, alone⟩ := field_chosen rivalKeys "first_name" distinct
  have text : (rivalKeys.findField? "first_name").map (·.1.text) = some "firstName" := by
    decide +kernel
  obtain ⟨pair, found, named⟩ := Option.map_eq_some_iff.mp text
  have backwards := alone ⟨"first-name", by decide +kernel, by decide, hyphens⟩
    (.mapping rivalKeys.info rivalKeys.pairs.reverse)
    (by rw [Node.pairs, List.map_reverse]; exact (List.reverse_perm _).nodup_iff.mpr distinct)
    (fun pair _ => by rw [Node.pairs]; exact List.mem_reverse)
  exact ⟨distinct, hyphens, pair, (chosen pair).mp found, named, backwards.trans found⟩

end DocRefs
