import DocRefs.Proofs.Extract.Decoded
import DocRefs.Proofs.Extract.Transparent
import DocRefs.Proofs.Index.Tables

/-!
# Readers of a mapping

A key may be written more than once. Looking it up, walking to it and asking for its place all give
the value that is written first (`find?_below_key`); maps and decoded values keep the one that is
written last (`OrderedMap.get?_ofList`). Where a key is written once they all read the same value.
Main result: `readers_of_key`.
-/
namespace DocRefs

/-! ### Pairs of a mapping -/

/-- The pairs in which a key is written. -/
def Node.written (n : Node) (key : String) : List (Node × Node) :=
  n.pairs.filter fun pair => pair.1.text = key

theorem Node.findKey?_eq_head? (n : Node) (key : String) :
    n.findKey? key = (n.written key).head? := by
  rw [written, List.head?_filter]
  rfl

/-- A mapping is read as it is. -/
theorem Node.content_of_isMapping {n : Node} (mapping : n.isMapping = true) : n.content = n := by
  have kind : n.kind = .mapping := by simpa [isMapping] using mapping
  rw [content, resolveAlias_of_not_alias (by simp [isAlias, kind]),
    unwrapDocument_of_not_document (by simp [isDocument, kind])]

/-! ### The value that is written first -/

theorem Node.atSegments?_key {root : Node} (mapping : root.isMapping = true) (key : String) :
    root.atSegments? [key] = (root.written key).head?.map fun pair => pair.2.resolveAlias := by
  rw [← findKey?_eq_head?]
  cases root with
  | mapping info pairs =>
    rw [atSegments?, resolveAlias_of_not_alias rfl]
    simp only [List.foldlM_cons, List.foldlM_nil, child?]
    cases (Node.mapping info pairs).findKey? key <;> rfl
  | _ => simp [isMapping, kind] at mapping

theorem Catalog.get?_places (location : Option String) (whole : Node) (fragment : String) :
    (ofDocument location whole).places.get? fragment =
      ((Place.below "" none whole.unwrapDocument).find? (·.fragment = fragment)).map fun place =>
        .ofPlace location fragment place.node place.key := by
  rw [ofDocument, Table.get?_ofList]
  induction Place.below "" none whole.unwrapDocument with
  | nil => rfl
  | cons place rest ih =>
    rw [List.map_cons, List.lookup_cons, List.find?_cons]
    by_cases here : place.fragment = fragment
    · simp [here]
    · have other : (fragment == place.fragment) = false := beq_false_of_ne (Ne.symm here)
      simpa [here, other] using ih

/-- The places below another key have fragments that begin otherwise. -/
theorem Place.find?_below_of_ne {pair : Node × Node} {key : String} (differ : pair.1.text ≠ key)
    (path : List String) :
    (below ("" ++ "/" ++ Fragment.escape pair.1.text) (some pair.1) pair.2).find?
      (·.fragment = Fragment.ofSegments (key :: path)) = none := by
  refine List.find?_eq_none.mpr fun place member => ?_
  -- Its fragment begins with the pair's own key, and fragments tell first keys apart.
  have listed : place ∈ belowPairs "" [pair] := by simpa [belowPairs_eq] using member
  obtain ⟨segment, only, deeper, written⟩ := written_of_mem_belowPairs listed
  have own : segment = pair.1.text := by simpa using only
  simp only [decide_eq_true_eq]
  intro same
  have joined : "" ++ Fragment.ofSegments (segment :: deeper) =
      "" ++ Fragment.ofSegments (key :: path) := by
    rw [← written, same, String.empty_append]
  exact differ (own.symm.trans (segment_eq joined))

/-- A place whose fragment begins with a key is under a pair in which the key is written. -/
theorem Place.find?_below_key {root : Node} (mapping : root.isMapping = true) (key : String)
    (path : List String) :
    (below "" none root).find? (·.fragment = Fragment.ofSegments (key :: path)) =
      (root.written key).findSome? fun pair =>
        (below (Fragment.ofSegments [key]) (some pair.1) pair.2).find?
          (·.fragment = Fragment.ofSegments (key :: path)) := by
  cases root with
  | mapping info pairs =>
    -- The fragment of the mapping itself is empty.
    have top : ¬ "" = Fragment.ofSegments (key :: path) := by
      simpa using fragment_ne "" key path
    rw [below, List.find?_cons_of_neg (by simpa using top), belowPairs_eq, List.find?_flatMap,
      Node.written, Node.pairs]
    clear mapping
    induction pairs with
    | nil => rfl
    | cons pair rest ih =>
      by_cases here : pair.1.text = key
      · have start : "" ++ "/" ++ Fragment.escape pair.1.text = Fragment.ofSegments [key] := by
          simp [here, Fragment.ofSegments]
        rw [List.filter_cons_of_pos (by simpa using here), List.findSome?_cons,
          List.findSome?_cons, start, ih]
      · rw [List.filter_cons_of_neg (by simpa using here), List.findSome?_cons,
          find?_below_of_ne here, ih]
  | _ => simp [Node.isMapping, Node.kind] at mapping

/-- The first of the places at or below a node is that of the node. -/
theorem Place.head?_below (fragment : String) (key : Option Node) (n : Node) :
    (below fragment key n).head? = some ⟨fragment, n, key⟩ := by
  cases n <;> simp [below]

theorem Place.below_of_alias {n : Node} (other : n.isAlias = true) (fragment : String)
    (key : Option Node) : below fragment key n = [⟨fragment, n, key⟩] := by
  cases n with
  | aliasTo info target => rfl
  | _ => simp [Node.isAlias, Node.kind] at other

/-! ### The value that is written last -/

/-- The value that is kept of those under one text. -/
theorem OrderedMap.lookup_ofList_pairs {β : Type} (f : Node → β) (pairs : List (Node × Node))
    (key : String) :
    (OrderedMap.ofList (pairs.map fun pair => (pair.1.text, f pair.2))).toList.lookup key =
      ((pairs.filter fun pair => pair.1.text = key).getLast?).map fun pair => f pair.2 := by
  rw [lookup_toList, get?_ofList, List.filter_map, List.getLast?_map, Option.map_map]
  rfl

/-- What is decoded under a key is the value that is written last. -/
theorem Decoded.ofNode_mapping {root : Node} (mapping : root.isMapping = true)
    (unmerged : root.Unmerged) : ∃ entries, Decoded.ofNode root = .mapping entries ∧
      ∀ key, entries.lookup key =
        ((root.written key).getLast?).map fun pair => Decoded.ofNode pair.2 := by
  cases root with
  | mapping info pairs =>
    exact ⟨_, ofNode_of_unmerged unmerged, fun key =>
      OrderedMap.lookup_ofList_pairs Decoded.ofNode pairs key⟩
  | _ => simp [Node.isMapping, Node.kind] at mapping

section Maps

variable {ρ : Type} [Buildable ρ]

theorem key_of_buildEntry {s : Setting} {key value : Node}
    {built : (FromKey String × FromNode ρ) × Option RefError}
    (made : buildEntry s key value = .ok built) :
    built.1.1 = { value := key.text, node := some key } := by
  simp only [buildEntry, bind, Except.bind] at made
  split at made
  · simp at made
  · split at made
    · simp at made
    · obtain rfl := Except.ok.inj made
      rfl

/-- What is built under a text is built from the pairs in which that is written. -/
theorem filter_built (s : Setting) (text : String) (pairs : List (Node × Node)) :
    (Outcome.built (pairs.map fun pair => buildEntry (ρ := ρ) s pair.1 pair.2)).filter
        (·.1 == { value := text }) =
      Outcome.built ((pairs.filter fun pair => pair.1.text = text).map fun pair =>
        buildEntry (ρ := ρ) s pair.1 pair.2) := by
  induction pairs with
  | nil => rfl
  | cons pair rest ih =>
    rw [List.map_cons, List.filter_cons]
    cases made : buildEntry (ρ := ρ) s pair.1 pair.2 with
    | error e =>
      -- What fails is in neither list.
      have none_built (later : List (Outcome (FromKey String × FromNode ρ))) :
          Outcome.built (.error e :: later) = Outcome.built later := rfl
      split
      · rw [List.map_cons, made, none_built, none_built, ih]
      · rw [none_built, ih]
    | ok built =>
      have one_built (later : List (Outcome (FromKey String × FromNode ρ))) :
          Outcome.built (.ok built :: later) = built.1 :: Outcome.built later := rfl
      -- An entry has the text of the key of its pair, so both lists keep it or neither does.
      have named : (built.1.1 == ({ value := text } : FromKey String)) =
          decide (pair.1.text = text) := by
        by_cases same : pair.1.text = text <;> simp [key_of_buildEntry made, same]
      rw [one_built, List.filter_cons, named]
      split
      · rw [List.map_cons, made, one_built, ih]
      · exact ih

/-- An entry of a map is that of the last pair with its key that was built. -/
theorem get?_buildEntries (mark : String) (key : Option Node) (entry : Entry)
    (unmerged : entry.node.Unmerged) (text : String) :
    (buildEntries (ρ := ρ) mark true key entry).value.get? text =
      ((Outcome.built ((entry.node.written text).map fun pair =>
        buildEntry (ρ := ρ) entry.setting pair.1 pair.2)).getLast?).map (·.2) := by
  have kept : keptPairs mark true entry.node = entry.node.pairs := by
    rw [keptPairs, unmerged.effectivePairs_eq]
    exact List.filter_true _
  have built := filter_built (ρ := ρ) entry.setting text entry.node.pairs
  rw [ExtractedMap.get?, buildEntries, kept, OrderedMap.get?_ofList]
  exact congrArg (fun l => l.getLast?.map (·.2)) built

/-- A value that is no reference is built as it is. -/
theorem buildEntry_of_not_ref (s : Setting) (key : Node) {value : Node}
    (plain : value.resolveAlias.isRef = false) :
    buildEntry (ρ := ρ) s key value = (buildValue s (some key) value.resolveAlias).map fun built =>
      (({ value := key.text, node := some key },
        { value := built, node := some value.resolveAlias }), none) := by
  have unread : value.resolveAlias.refText? = none := by
    simpa [Node.refText?, Node.isRef] using plain
  simp only [buildEntry, Entry.resolve, unread, Entry.buildFromNode, Entry.build]
  cases made : buildValue (ρ := ρ) s (some key) value.resolveAlias <;>
    simp [made, bind, Except.bind, pure, Except.pure, Except.map]

theorem extractMapFrom_of_content (s : Setting) {n : Node} (plain : n.content.isRef = false)
    (extensions : Bool) :
    extractMapFrom (ρ := ρ) s n extensions =
      .ok (buildEntries s.index.config.extensionPrefix extensions none
        { node := n.content, setting := s }) := by
  have unread : n.resolveAlias.unwrapDocument.refText? = none := by
    simpa [Node.refText?, Node.isRef, Node.content] using plain
  rw [extractMapFrom, Entry.resolve, unread]
  rfl

theorem extractMapFrom_of_not_ref (s : Setting) {root : Node} (mapping : root.isMapping = true)
    (plain : root.isRef = false) (extensions : Bool) :
    extractMapFrom (ρ := ρ) s root extensions =
      .ok (buildEntries s.index.config.extensionPrefix extensions none
        { node := root, setting := s }) := by
  have content : root.content = root := Node.content_of_isMapping mapping
  rw [extractMapFrom_of_content s (by rwa [content]), content]

/-- The entry under a key is built from the value that is written last, if that can be built. -/
theorem get?_extractMapFrom (s : Setting) {root : Node} (mapping : root.isMapping = true)
    (unmerged : root.Unmerged) (plain : root.isRef = false) {key : String} {last : Node × Node}
    (written : (root.written key).getLast? = some last)
    (direct : last.2.resolveAlias.isRef = false) {built : ρ}
    (made : buildValue s (some last.1) last.2.resolveAlias = .ok built) :
    ∃ p, extractMapFrom (ρ := ρ) s root true = .ok p ∧
      p.value.get? key = some { value := built, node := some last.2.resolveAlias } := by
  refine ⟨_, extractMapFrom_of_not_ref s mapping plain true, ?_⟩
  -- Whatever came of the pairs before it, an entry is built from the last one.
  obtain ⟨before, split⟩ := List.getLast?_eq_some_iff.mp written
  rw [get?_buildEntries _ _ { node := root, setting := s } unmerged, split, List.map_append,
    Outcome.built, List.filterMap_append]
  simp [buildEntry_of_not_ref s last.1 direct, made, Except.map]

end Maps

/-! ### Pointers and places -/

theorem Index.resolve?_key (config : Config) (location : Option String) (registry : Option Registry)
    {whole : Node} (mapping : whole.unwrapDocument.isMapping = true) (others : Registry)
    (context : Context) {document : String} (clear : '#' ∉ document.toList)
    (own : (build config location registry whole).isLocal document = true) (key : String) :
    ((build config location registry whole).resolve? others
        (document ++ "#" ++ Fragment.ofSegments [key]) context).map (·.reference.node) =
      (whole.unwrapDocument.written key).head?.map (·.2) := by
  have places : (build config location registry whole).places =
      (Catalog.ofDocument location whole).places := rfl
  rw [resolve?, Location.splitPointer_hash clear]
  dsimp only
  rw [if_pos own, places, Catalog.get?_places, Place.find?_below_key mapping]
  -- The first place below a pair is that of its value.
  cases written : whole.unwrapDocument.written key with
  | nil => rfl
  | cons first rest =>
    obtain ⟨later, below⟩ := List.head?_eq_some_iff.mp
      (Place.head?_below (Fragment.ofSegments [key]) (some first.1) first.2)
    rw [List.findSome?_cons, below]
    simp [Reference.ofPlace]

theorem Index.get?_places_key (config : Config) (location : Option String)
    (registry : Option Registry) {whole : Node} (mapping : whole.unwrapDocument.isMapping = true)
    {key : String} {pair : Node × Node} (once : whole.unwrapDocument.written key = [pair])
    (path : List String) :
    ((build config location registry whole).places.get? (Fragment.ofSegments (key :: path))).map
        (·.node) =
      ((Place.below (Fragment.ofSegments [key]) (some pair.1) pair.2).find?
        (·.fragment = Fragment.ofSegments (key :: path))).map (·.node) := by
  have places : (build config location registry whole).places =
      (Catalog.ofDocument location whole).places := rfl
  rw [places, Catalog.get?_places, Place.find?_below_key mapping, once]
  -- The catalogue keeps the node of a place, whatever else it makes of it.
  simp only [List.findSome?_cons, List.findSome?_nil, Option.map_map]
  cases (Place.below (Fragment.ofSegments [key]) (some pair.1) pair.2).find?
    (·.fragment = Fragment.ofSegments (key :: path)) <;> rfl

/-- A mapping without merge keys is the content of a document that is indexed. Of the values that
are written in it under a key

- the first is found by a look-up and is the place of every pointer to the key in the document;
  with aliases followed it is where the walk comes to;
- the last, with aliases followed, is what the entry of the map is built from if it can be built,
  where neither it nor the mapping is a reference;
- the last is what is decoded.

Where the key is written once, that is all one value, and the places whose fragments begin with the
key are those at and below it, no alias being entered. -/
theorem readers_of_key {ρ : Type} [Buildable ρ] (config : Config) (location : Option String)
    (registry : Option Registry) (whole root : Node) (content : whole.unwrapDocument = root)
    (mapping : root.isMapping = true) (unmerged : root.Unmerged) (s : Setting)
    (others : Registry) (context : Context) (key : String) (first last : Node × Node)
    (opens : (root.written key).head? = some first)
    (closes : (root.written key).getLast? = some last) :
    let ix := Index.build config location registry whole
    root.findKey? key = some first ∧
    (∀ document, '#' ∉ document.toList → ix.isLocal document = true →
      (ix.resolve? others (document ++ "#" ++ Fragment.ofSegments [key]) context).map
        (·.reference.node) = some first.2) ∧
    root.atSegments? [key] = some first.2.resolveAlias ∧
    (root.isRef = false → last.2.resolveAlias.isRef = false → ∀ built : ρ,
      buildValue s (some last.1) last.2.resolveAlias = .ok built →
        ∃ p, extractMapFrom (ρ := ρ) s root true = .ok p ∧
          p.value.get? key = some { value := built, node := some last.2.resolveAlias }) ∧
    (∃ entries, Decoded.ofNode root = .mapping entries ∧
      entries.lookup key = some (Decoded.ofNode last.2)) ∧
    (root.written key = [first] → last = first ∧ ∀ path,
      (ix.places.get? (Fragment.ofSegments (key :: path))).map (·.node) =
        ((Place.below (Fragment.ofSegments [key]) (some first.1) first.2).find?
          (·.fragment = Fragment.ofSegments (key :: path))).map (·.node)) := by
  subst content
  intro ix
  refine ⟨?_, fun document clear own => ?_, ?_, ?_, ?_, fun once => ⟨?_, fun path => ?_⟩⟩
  · rw [Node.findKey?_eq_head?, opens]
  · rw [Index.resolve?_key config location registry mapping others context clear own, opens]
    rfl
  · rw [Node.atSegments?_key mapping, opens]
    rfl
  · exact fun plain direct built made =>
      get?_extractMapFrom s mapping unmerged plain closes direct made
  · obtain ⟨entries, decoded, under⟩ := Decoded.ofNode_mapping mapping unmerged
    exact ⟨entries, decoded, by rw [under, closes]; rfl⟩
  · rw [once] at closes
    simpa using closes.symm
  · exact Index.get?_places_key config location registry mapping once path

/-- The mapping in a text. -/
def Node.ofText (text : String) : Node := (Build.runNew (Node.parse text)).toOption.getD default

/-- The setting of a document that is read alone. -/
def Setting.ofDocument (root : Node) : Setting := ⟨.alone, Index.ofDocument {} root, {}⟩

/-- A key that is written twice, and an alias. -/
def repeated : Node := .ofText "a: one\nb: &m {y: two}\na: three\ncopy: *m\n"

theorem Word.buildValue_eq (s : Setting) (key : Option Node) (n : Node) :
    buildValue s key n = .ok (⟨n.text⟩ : Word) := by
  have filled : (populate (Buildable.fields (ρ := Word)) n Buildable.initial).toExcept =
      .ok Buildable.initial := congrArg Partial.toExcept (populate_nil n _)
  rw [buildValue, filled]
  rfl

theorem readers_of_key_repeated :
    (∃ first last : Node × Node, repeated.findKey? "a" = some first ∧ first.2.text = "one" ∧
      last.2.text = "three" ∧ ∃ p, extractMapFrom (.ofDocument repeated) repeated true = .ok p ∧
        p.value.get? "a" = some { value := (⟨"three"⟩ : Word), node := some last.2.resolveAlias }) ∧
    ∃ copy, repeated.findKey? "copy" = some copy ∧ copy.2.isAlias = true ∧
      ((Index.build {} none none repeated).places.get? "/copy/y").map (·.node) = none := by
  have mapping : repeated.isMapping = true := by decide +kernel
  have whole : repeated.unwrapDocument = repeated :=
    Node.unwrapDocument_of_not_document (by decide +kernel)
  have unmerged : repeated.Unmerged := by
    have all : repeated.pairs.all (fun pair => !pair.1.isMergeKey) = true := by decide +kernel
    simpa [Node.Unmerged] using all
  constructor
  · obtain ⟨first, opens⟩ : ∃ first, (repeated.written "a").head? = some first :=
      Option.isSome_iff_exists.mp (by decide +kernel)
    obtain ⟨last, closes⟩ : ∃ last, (repeated.written "a").getLast? = some last :=
      Option.isSome_iff_exists.mp (by decide +kernel)
    have one : (repeated.written "a").head?.map (·.2.text) = some "one" := by decide +kernel
    have three : (repeated.written "a").getLast?.map (fun pair =>
        (pair.2.text, pair.2.resolveAlias.text, pair.2.resolveAlias.isRef)) =
          some ("three", "three", false) := by decide +kernel
    rw [opens] at one
    rw [closes] at three
    obtain ⟨text, resolved, direct⟩ : last.2.text = "three" ∧ last.2.resolveAlias.text = "three" ∧
        last.2.resolveAlias.isRef = false := by simpa using three
    obtain ⟨found, _, _, mapped, _, _⟩ := readers_of_key (ρ := Word) {} none none repeated repeated
      whole mapping unmerged (.ofDocument repeated) .alone {} "a" first last opens closes
    have built := mapped (by decide +kernel) direct _ (Word.buildValue_eq _ _ _)
    rw [resolved] at built
    exact ⟨first, last, found, by simpa using one, text, built⟩
  · have once : (repeated.written "copy").map (·.2.isAlias) = [true] := by decide +kernel
    obtain ⟨copy, written, isAlias⟩ := List.map_eq_singleton_iff.mp once
    obtain ⟨found, _, _, _, _, places⟩ := readers_of_key (ρ := Word) {} none none repeated repeated
      whole mapping unmerged (.ofDocument repeated) .alone {} "copy" copy copy
      (by rw [written]; rfl) (by rw [written]; rfl)
    refine ⟨copy, found, isAlias, ?_⟩
    have spelled : Fragment.ofSegments ["copy", "y"] = "/copy/y" := by decide +kernel
    have differ : Fragment.ofSegments ["copy"] ≠ Fragment.ofSegments ["copy", "y"] := by
      decide +kernel
    -- The alias is the only place there.
    rw [← spelled, (places written).2 ["y"], Place.below_of_alias isAlias]
    simp [differ]

/-- The text of the node that an entry of the whole map is built from. -/
def entryText? (root : Node) (key : String) : Option String :=
  match extractMapFrom (ρ := Word) (.ofDocument root) root true with
  | .ok ⟨m, none⟩ => (m.get? key).bind fun entry => entry.node.map Node.text
  | _ => none

/-- The whole map has an entry that is not built from the value that a look-up finds. -/
def ReadsOther (root : Node) (key : String) : Prop :=
  ∃ found m entry, root.findKey? key = some found ∧
    extractMapFrom (ρ := Word) (.ofDocument root) root true = .ok (.ok m) ∧
      m.get? key = some entry ∧ entry.node ≠ some found.2.resolveAlias

theorem readsOther_of_texts {root : Node} {key text other : String} (differ : text ≠ other)
    (looked : (root.findKey? key).map (·.2.resolveAlias.text) = some text)
    (read : entryText? root key = some other) : ReadsOther root key := by
  obtain ⟨found, there, rfl⟩ := Option.map_eq_some_iff.mp looked
  unfold entryText? at read
  split at read
  next m extracted =>
    obtain ⟨entry, under, built⟩ := Option.bind_eq_some_iff.mp read
    obtain ⟨n, node, rfl⟩ := Option.map_eq_some_iff.mp built
    refine ⟨found, m, entry, there, extracted, under, fun same => differ ?_⟩
    rw [Option.some.inj (node.symm.trans same)]
  · simp at read

/-- A mapping that is a reference, with another key. -/
def relayedKey : Node := .ofText "a: one\n$ref: '#/b'\nb: {a: two}\n"

/-- A map has the last value of a key that is written twice, and what the mapping refers to. An
alias has no places below it, though what it stands for has a key. -/
theorem readers_differ : ReadsOther repeated "a" ∧ ReadsOther relayedKey "a" ∧
    ((repeated.atSegments? ["copy"]).bind (·.findKey? "y")).isSome = true ∧
      ((Index.build {} none none repeated).places.get? "/copy/y").isSome = false := by
  refine ⟨?_, ?_, by decide +kernel, by decide +kernel⟩
  · have differ : "one" ≠ "three" := by decide
    exact readsOther_of_texts differ (by decide +kernel) (by decide +kernel)
  · have differ : "one" ≠ "two" := by decide
    exact readsOther_of_texts differ (by decide +kernel) (by decide +kernel)

end DocRefs
