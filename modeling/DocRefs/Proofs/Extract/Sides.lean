import DocRefs.Extract.Extensions
import DocRefs.Proofs.Extract.Readers
import DocRefs.Proofs.Text.Prefix

/-!
# Extensions and other entries

The extensions of a mapping are read apart from its other entries, each with a test of its own for
the mark of extensions. No key is in both, and none is lost: together they are the keys of the map
that is read with its extensions. Main result: `extractMapFrom_parted`.
-/
namespace DocRefs

/-- A key is marked when its bytes begin with those of the mark up to ASCII case. -/
theorem isMarkedKey_eq_bytes (mark key : String) :
    isMarkedKey mark key = (!mark.isEmpty && Text.startsWithBytes key mark) := by
  rw [isMarkedKey, Text.startsWithBytes_eq]

theorem isMarkedKey_iff_exists {mark key : String} :
    isMarkedKey mark key = true ↔
      mark ≠ "" ∧ ∃ front back, key = front ++ back ∧ Text.equalFold front mark = true := by
  rw [isMarkedKey, Bool.and_eq_true, Text.startsWithFold_iff_exists]
  simp

/-! ### Sides -/

/-- The keys of a mapping, parted into those of extensions and the others. -/
structure Parted (mark : String) (written whole ordinary marked : List String) : Prop where
  /-- Keys are in the order in which they first come. -/
  whole_order : whole = written.eraseDups
  ordinary_order : ordinary = (written.filter fun key => !isMarkedKey mark key).eraseDups
  marked_order : marked = (written.filter (isMarkedKey mark)).eraseDups
  disjoint : ∀ key ∈ ordinary, key ∉ marked
  cover : ∀ key, key ∈ whole ↔ key ∈ ordinary ∨ key ∈ marked
  side : ∀ key ∈ whole, key ∈ marked ↔
    mark ≠ "" ∧ ∃ front back, key = front ++ back ∧ Text.equalFold front mark = true

theorem parted_filter (mark : String) (written : List String) :
    Parted mark written written.eraseDups
      (written.filter fun key => !isMarkedKey mark key).eraseDups
      (written.filter (isMarkedKey mark)).eraseDups where
  whole_order := rfl
  ordinary_order := rfl
  marked_order := rfl
  disjoint key member marked := by
    simp only [List.mem_eraseDups, List.mem_filter, Bool.not_eq_true'] at member marked
    simp [marked.2] at member
  cover key := by
    simp only [List.mem_eraseDups, List.mem_filter, Bool.not_eq_true']
    cases isMarkedKey mark key <;> simp
  side key member := by
    simp only [List.mem_eraseDups] at member
    simp only [List.mem_eraseDups, List.mem_filter, isMarkedKey_iff_exists, member, true_and]

/-! ### Keys of what is built -/

theorem FromKey.map_value_eraseDups (keys : List (FromKey String)) :
    keys.eraseDups.map (·.value) = (keys.map (·.value)).eraseDups := by
  induction keys using OrderedMap.eraseDups_induction with
  | nil => rfl
  | cons first rest ih =>
    rw [List.eraseDups_cons, List.map_cons, List.map_cons, List.eraseDups_cons, List.filter_map, ih]
    rfl

/-- The values of the keys of a map, from the pairs it is made of. -/
theorem OrderedMap.map_value_keys_ofList {ν : Type} (pairs : List (FromKey String × ν)) :
    (ofList pairs).keys.map (·.value) = (pairs.map (·.1.value)).eraseDups := by
  rw [keys_ofList, FromKey.map_value_eraseDups, List.map_map]
  rfl

theorem Node.keys_extensionsMarked (n : Node) (mark : String) :
    (n.extensionsMarked mark).keys.map (·.value) =
      ((n.content.effectivePairs.map (·.1.text)).filter (isMarkedKey mark)).eraseDups := by
  rw [extensionsMarked, OrderedMap.map_value_keys_ofList, List.map_map, List.filter_map]
  rfl

section

variable {ρ : Type} [Buildable ρ]

/-- Where every entry is built, each pair has one. -/
theorem keys_built {s : Setting} {pairs : List (Node × Node)}
    (builds : ∀ pair ∈ pairs, ∃ built, buildEntry (ρ := ρ) s pair.1 pair.2 = .ok built) :
    (Outcome.built (pairs.map fun pair => buildEntry (ρ := ρ) s pair.1 pair.2)).map (·.1.value) =
      pairs.map (·.1.text) := by
  induction pairs with
  | nil => rfl
  | cons pair rest ih =>
    -- An entry has the key of its pair, whatever value is built.
    obtain ⟨⟨built, made⟩, later⟩ := List.forall_mem_cons.mp builds
    have named : built.1.1.value = pair.1.text := by rw [key_of_buildEntry made]
    rw [List.map_cons, made, List.map_cons, ← named, ← ih later]
    rfl

theorem keys_buildEntries (mark : String) (extensions : Bool) (key : Option Node) {entry : Entry}
    (builds : ∀ pair ∈ entry.node.effectivePairs,
      ∃ built, buildEntry (ρ := ρ) entry.setting pair.1 pair.2 = .ok built) :
    (buildEntries (ρ := ρ) mark extensions key entry).value.keys =
      ((entry.node.effectivePairs.map (·.1.text)).filter fun key =>
        extensions || !isMarkedKey mark key).eraseDups := by
  have kept : ∀ pair ∈ keptPairs mark extensions entry.node,
      ∃ built, buildEntry (ρ := ρ) entry.setting pair.1 pair.2 = .ok built :=
    fun pair member => builds pair (List.mem_of_mem_filter member)
  have keys := keys_built kept
  rw [ExtractedMap.keys, buildEntries, OrderedMap.map_value_keys_ofList, List.filter_map]
  exact congrArg List.eraseDups keys

/-- A mapping that is no reference, each of whose entries can be built, is read as a map without
extensions, as a map with them, and for its extensions. Each key is in one of the first and the
last, in the order in which keys first come; it is an extension when the mark is not empty and some
text that the key begins with equals the mark up to ASCII case. Read off the bytes of the key, the
mark is found in the same keys. -/
theorem extractMapFrom_parted (s : Setting) (n : Node) (plain : n.content.isRef = false)
    (builds : ∀ pair ∈ n.content.effectivePairs,
      ∃ built, buildEntry (ρ := ρ) s pair.1 pair.2 = .ok built) :
    let mark := s.index.config.extensionPrefix
    (∃ ordinary whole : Partial (ExtractedMap ρ),
      extractMapFrom s n false = .ok ordinary ∧ extractMapFrom s n true = .ok whole ∧
      Parted mark (n.content.effectivePairs.map (·.1.text)) whole.value.keys ordinary.value.keys
        ((n.extensionsMarked mark).keys.map (·.value))) ∧
    ∀ key, isMarkedKey mark key = (!mark.isEmpty && Text.startsWithBytes key mark) := by
  intro mark
  refine ⟨⟨_, _, extractMapFrom_of_content s plain false, extractMapFrom_of_content s plain true,
    ?_⟩, isMarkedKey_eq_bytes mark⟩
  -- The three lists of keys are cut from the same pairs.
  rw [keys_buildEntries _ _ _ builds, keys_buildEntries _ _ _ builds, Node.keys_extensionsMarked]
  simpa using parted_filter mark (n.content.effectivePairs.map (·.1.text))

end

/-- Extensions under a mark with a letter beyond ASCII, written in several ways, merged in and
written again. -/
def accented : Node := .ofText
  "é-xa: one\nplain: two\nÉ-Xb: three\né-Xb: four\né: five\n<<: {é-XC: six, plain: 7}\né-xa: last\n"

def Setting.accented : Setting :=
  ⟨.alone, Index.ofDocument { extensionPrefix := "é-x" } DocRefs.accented, {}⟩

theorem extractMapFrom_parted_accented : ∃ ordinary whole : Partial (ExtractedMap Word),
    extractMapFrom .accented accented false = .ok ordinary ∧
      extractMapFrom .accented accented true = .ok whole ∧
      ordinary.value.keys = ["plain", "É-Xb", "é"] ∧
      (accented.extensionsMarked "é-x").keys.map (·.value) = ["é-xa", "é-Xb", "é-XC"] ∧
      whole.value.keys = ["é-xa", "plain", "É-Xb", "é-Xb", "é", "é-XC"] := by
  have written : accented.content.effectivePairs.map (·.1.text) =
      ["é-xa", "plain", "É-Xb", "é-Xb", "é", "é-XC", "é-xa"] := by decide +kernel
  obtain ⟨plain, direct⟩ : accented.content.isRef = false ∧
      ∀ pair ∈ accented.content.effectivePairs, pair.2.resolveAlias.isRef = false := by
    decide +kernel
  have builds : ∀ pair ∈ accented.content.effectivePairs,
      ∃ built, buildEntry (ρ := Word) .accented pair.1 pair.2 = .ok built := fun pair member =>
    ⟨_, by rw [buildEntry_of_not_ref _ _ (direct pair member), Word.buildValue_eq]; rfl⟩
  obtain ⟨⟨ordinary, whole, without, all, parted⟩, _⟩ :=
    extractMapFrom_parted .accented accented plain builds
  rw [written] at parted
  refine ⟨ordinary, whole, without, all, ?_, ?_, ?_⟩
  · rw [parted.ordinary_order]
    decide +kernel
  · exact parted.marked_order.trans (by decide +kernel)
  · rw [parted.whole_order]
    decide +kernel

end DocRefs
