import DocRefs.Proofs.Digest.Encoded
import DocRefs.Proofs.Digest.Framing

/-!
# Digests tell trees apart

Main result: `Engine.hash_decides_equivalence`. Trees that say the same have the same digest, and
trees with the same digest say the same, unless SHA-256 has given one digest to two byte strings
that were hashed for them.
-/
namespace DocRefs.Engine

open scoped List

variable {α β : Type} {seed : List UInt8}

/-! ### Nodes that say the same -/

theorem wide_structural (n : Node) : Wide (structural seed n) := length_sha256 _

theorem map_eq_of_forall₂ {R : Node → Node → Prop} {xs ys : List Node}
    (related : List.Forall₂ R xs ys)
    (same : ∀ x ∈ xs, ∀ y, R x y → structural seed x = structural seed y) :
    xs.map (structural seed) = ys.map (structural seed) := by
  induction related with
  | nil => rfl
  | cons first _ ih =>
    obtain ⟨here, later⟩ := List.forall_mem_cons.mp same
    rw [List.map_cons, List.map_cons, here _ first, ih later]

theorem map_pairs_eq (pairs : List (Node × Node)) :
    pairs.map (structuralPair seed) =
      ((pairs.map Prod.fst).map (structural seed)).zip
        ((pairs.map Prod.snd).map (structural seed)) := by
  rw [List.map_map, List.map_map, List.zip_map']
  rfl

theorem items_wide (items : List Node) : ∀ d ∈ items.map (structural seed), Wide d := by
  intro d member
  obtain ⟨item, _, rfl⟩ := List.mem_map.mp member
  exact wide_structural item

theorem pairs_wide (pairs : List (Node × Node)) :
    ∀ p ∈ pairs.map (structuralPair seed), Wide p.1 ∧ Wide p.2 := by
  intro p member
  obtain ⟨q, _, rfl⟩ := List.mem_map.mp member
  exact ⟨wide_structural q.1, wide_structural q.2⟩

theorem structural_of_equivalent (a : Node) :
    ∀ b, a.Equivalent b → structural seed a = structural seed b := by
  -- What the relation says of the children stands inside lists, so the induction is on the size.
  induction a using WellFounded.induction (measure (sizeOf : Node → Nat)).wf with
  | _ a ih =>
    intro b equivalent
    have below : ∀ x ∈ a.behind.children, ∀ y, x.Equivalent y →
        structural seed x = structural seed y := by
      intro x member
      apply ih
      exact Nat.lt_of_lt_of_le (Node.sizeOf_lt_of_mem_children member) a.sizeOf_behind_le
    rw [structural, structural, ← encoded_behind a, ← encoded_behind b]
    cases equivalent with
    | scalar left right tags => rw [left, right, encoded, encoded, tags]
    | sequence left right items =>
      rw [left] at below
      rw [left, right, encoded, encoded, encodedItems_eq, encodedItems_eq,
        map_eq_of_forall₂ items below]
    | @mapping _ _ info other xs ys zs left right order keys values =>
      -- Through `zs`: pair by pair the digests are equal, and then only the order differs.
      rw [left] at below
      have ofKeys := map_eq_of_forall₂ keys fun x member =>
        below x (Node.mem_children_of_key member)
      have ofValues := map_eq_of_forall₂ values fun x member =>
        below x (Node.mem_children_of_value member)
      have bytes : pairsBytes (xs.map (structuralPair seed)) =
          pairsBytes (ys.map (structuralPair seed)) := by
        rw [pairsBytes_eq_iff (pairs_wide xs) (pairs_wide ys), map_pairs_eq xs, ofKeys, ofValues,
          ← map_pairs_eq zs]
        exact order.map _
      rw [left, right, encoded, encoded, encodedPairs_eq, encodedPairs_eq, bytes]
    | @document _ _ info other x y left right roots =>
      rw [left] at below
      have digest := below x (by simp [Node.children]) y roots
      rw [left, right, encoded, encoded]
      exact congrArg (fun d => sha256 (seed ++ listBytes "D" [d])) digest

/-! ### Digests that come from the same bytes -/

/-- The bytes were hashed to get the digest of the node: its own, or those of a node below. -/
def Fed (seed : List UInt8) (n : Node) (bytes : List UInt8) : Prop :=
  ∃ m, n.Reaches m ∧ bytes = seed ++ encoded seed m

/-- SHA-256 has given one digest to two byte strings that were hashed for the nodes. -/
def Collides (seed : List UInt8) (a b : Node) : Prop :=
  ∃ x y, Fed seed a x ∧ Fed seed b y ∧ x ≠ y ∧ sha256 x = sha256 y

theorem Collides.of_reaches {a b x y : Node} (collides : Collides seed x y) (left : a.Reaches x)
    (right : b.Reaches y) : Collides seed a b := by
  obtain ⟨_, _, ⟨m, under, rfl⟩, ⟨n, beneath, rfl⟩, differ, same⟩ := collides
  exact ⟨_, _, ⟨m, left.trans under, rfl⟩, ⟨n, right.trans beneath, rfl⟩, differ, same⟩

/-- The byte that is written first for a node of that kind. -/
def mark : NodeKind → UInt8
  | .document => 68
  | .mapping => 77
  | .sequence => 81
  | .scalar => 83
  | .aliasNode => 0

theorem head?_encoded (seed : List UInt8) {n : Node} (plain : n.isAlias = false) :
    (encoded seed n).head? = some (mark n.kind) := by
  have document : utf8Bytes "D" = [68] := utf8Bytes_eq _
  have mapping : utf8Bytes "M" = [77] := utf8Bytes_eq _
  have sequence : utf8Bytes "Q" = [81] := utf8Bytes_eq _
  have scalar : utf8Bytes "S" = [83] := utf8Bytes_eq _
  cases n with
  | aliasTo info target => cases plain
  | scalar info text => simp [encoded, scalarBytes, scalar, Node.kind, mark]
  | sequence info items => simp [encoded, listBytes, sequence, Node.kind, mark]
  | mapping info pairs => simp [encoded, pairsBytes_eq, mapping, Node.kind, mark]
  | document info root => simp [encoded, listBytes, document, Node.kind, mark]

theorem kind_eq_of_encoded {a b : Node} (plain : a.isAlias = false) (other : b.isAlias = false)
    (same : encoded seed a = encoded seed b) : a.kind = b.kind := by
  have marks : mark a.kind = mark b.kind := by
    apply Option.some.inj
    rw [← head?_encoded seed plain, same, head?_encoded seed other]
  revert marks
  cases a.kind <;> cases b.kind <;> decide

theorem forall₂_of_map_eq {R : Node → Node → Prop} {xs ys : List Node}
    (digests : xs.map (structural seed) = ys.map (structural seed))
    (each : ∀ x ∈ xs, ∀ y ∈ ys, structural seed x = structural seed y → R x y) :
    List.Forall₂ R xs ys := by
  induction xs generalizing ys with
  | nil =>
    obtain rfl : ys = [] := by simpa using digests.symm
    exact .nil
  | cons x xs ih =>
    cases ys with
    | nil => cases digests
    | cons y ys =>
      obtain ⟨first, later⟩ := List.cons.inj digests
      refine .cons (each x (by simp) y (by simp) first) (ih later ?_)
      intro z member w there
      exact each z (List.mem_cons_of_mem _ member) w (List.mem_cons_of_mem _ there)

/-- What is mapped onto a list in some order is so in the order of that list. -/
theorem exists_perm_map_eq {l : List β} {ys : List α} {f : α → β} (order : l ~ ys.map f) :
    ∃ zs, zs ~ ys ∧ l = zs.map f := by
  have both : Relation.Comp List.Perm (List.Forall₂ fun c y => c = f y) l ys := by
    refine ⟨ys.map f, order, ?_⟩
    rw [List.forall₂_map_left_iff]
    exact List.forall₂_same.mpr fun _ _ => rfl
  rw [← List.forall₂_comp_perm_eq_perm_comp_forall₂] at both
  obtain ⟨zs, same, perm⟩ := both
  rw [← List.forall₂_map_right_iff (R := (· = ·)), List.forall₂_eq_eq_eq] at same
  exact ⟨zs, perm, same⟩

/-- Pairs with the same digests in some order can be matched, keys with keys, values with values. -/
theorem exists_matching {R : Node → Node → Prop} {xs ys : List (Node × Node)}
    (digests : xs.map (structuralPair seed) ~ ys.map (structuralPair seed))
    (keys : ∀ x ∈ xs.map Prod.fst, ∀ y ∈ ys.map Prod.fst,
      structural seed x = structural seed y → R x y)
    (values : ∀ x ∈ xs.map Prod.snd, ∀ y ∈ ys.map Prod.snd,
      structural seed x = structural seed y → R x y) :
    ∃ zs, zs ~ ys ∧ List.Forall₂ R (xs.map Prod.fst) (zs.map Prod.fst) ∧
      List.Forall₂ R (xs.map Prod.snd) (zs.map Prod.snd) := by
  obtain ⟨zs, order, same⟩ := exists_perm_map_eq digests
  -- In the order of `xs`, equal pairs of digests are equal digests of keys and of values.
  have firsts : (xs.map Prod.fst).map (structural seed) =
      (zs.map Prod.fst).map (structural seed) := by
    simpa only [List.map_map, Function.comp_def, structuralPair] using
      congrArg (List.map Prod.fst) same
  have seconds : (xs.map Prod.snd).map (structural seed) =
      (zs.map Prod.snd).map (structural seed) := by
    simpa only [List.map_map, Function.comp_def, structuralPair] using
      congrArg (List.map Prod.snd) same
  refine ⟨zs, order, forall₂_of_map_eq firsts ?_, forall₂_of_map_eq seconds ?_⟩
  · intro x member y there
    exact keys x member y ((order.map Prod.fst).mem_iff.mp there)
  · intro x member y there
    exact values x member y ((order.map Prod.snd).mem_iff.mp there)

theorem equivalent_of_structural (a : Node) : ∀ b, a.TagsFit → b.TagsFit →
    ¬ Collides seed a b → structural seed a = structural seed b → a.Equivalent b := by
  induction a using WellFounded.induction (measure (sizeOf : Node → Nat)).wf with
  | _ a ih =>
    intro b fits others apart same
    -- Different bytes would collide right here.
    have bytes : encoded seed a.behind = encoded seed b.behind := by
      rw [encoded_behind, encoded_behind]
      by_contra differ
      apply apart
      refine ⟨_, _, ⟨a, .refl a, rfl⟩, ⟨b, .refl b, rfl⟩, ?_, same⟩
      intro whole
      exact differ (List.append_cancel_left whole)
    have kinds : a.behind.kind = b.behind.kind :=
      kind_eq_of_encoded a.isAlias_behind b.isAlias_behind bytes
    -- A collision for two children is one for their parents.
    have below : ∀ x ∈ a.behind.children, ∀ y ∈ b.behind.children,
        structural seed x = structural seed y → x.Equivalent y := by
      intro x member y there digests
      have toX := a.reaches_behind.trans (Node.reaches_of_mem_children member)
      have toY := b.reaches_behind.trans (Node.reaches_of_mem_children there)
      refine ih x ?_ y (fits.of_reaches toX) (others.of_reaches toY) ?_ digests
      · exact Nat.lt_of_lt_of_le (Node.sizeOf_lt_of_mem_children member) a.sizeOf_behind_le
      · intro collides
        exact apart (collides.of_reaches toX toY)
    have tag := fits a.behind a.reaches_behind
    have otherTag := others b.behind b.reaches_behind
    cases left : a.behind with
    | aliasTo info target => exact absurd left (Node.behind_ne_alias info target a)
    | scalar info text =>
      cases right : b.behind with
      | scalar other otherText =>
        rw [left, right] at bytes
        rw [left] at tag
        rw [right] at otherTag
        obtain ⟨tags, rfl⟩ := scalarBytes_injective tag otherTag bytes
        exact .scalar left right tags
      | _ => simp [left, right, Node.kind] at kinds
    | sequence info xs =>
      cases right : b.behind with
      | sequence other ys =>
        rw [left, right] at below
        rw [left, right, encoded, encoded, encodedItems_eq, encodedItems_eq] at bytes
        have digests := listBytes_injective (items_wide xs) (items_wide ys) bytes
        exact .sequence left right (forall₂_of_map_eq digests below)
      | _ => simp [left, right, Node.kind] at kinds
    | mapping info xs =>
      cases right : b.behind with
      | mapping other ys =>
        rw [left, right] at below
        rw [left, right, encoded, encoded, encodedPairs_eq, encodedPairs_eq,
          pairsBytes_eq_iff (pairs_wide xs) (pairs_wide ys)] at bytes
        obtain ⟨zs, order, keys, values⟩ := exists_matching bytes
          (fun x member y there => below x (Node.mem_children_of_key member) y
            (Node.mem_children_of_key there))
          (fun x member y there => below x (Node.mem_children_of_value member) y
            (Node.mem_children_of_value there))
        exact .mapping left right order keys values
      | _ => simp [left, right, Node.kind] at kinds
    | document info x =>
      cases right : b.behind with
      | document other y =>
        rw [left, right] at below
        rw [left, right, encoded, encoded] at bytes
        have digests : [structural seed x] = [structural seed y] :=
          listBytes_injective (items_wide [x]) (items_wide [y]) bytes
        exact .document left right
          (below x (by simp [Node.children]) y (by simp [Node.children]) (List.cons.inj digests).1)
      | _ => simp [left, right, Node.kind] at kinds

/-- Trees whose chains of aliases are followed to their ends have the same digest if they say the
same. If they have the same digest, they say the same, or SHA-256 has given one digest to two byte
strings that were hashed for them. -/
theorem hash_decides_equivalence (seed : Option (List UInt8)) {a b : Node} (left : a.ShortChains)
    (right : b.ShortChains) :
    (a.Equivalent b → hashNode seed a = hashNode seed b) ∧
    (a.TagsFit → b.TagsFit → hashNode seed a = hashNode seed b →
      a.Equivalent b ∨ Collides (seed.getD []) a b) := by
  rw [hashNode_eq seed left, hashNode_eq seed right]
  constructor
  · exact structural_of_equivalent a b
  · intro fits others same
    by_cases collides : Collides (seed.getD []) a b
    · exact .inr collides
    · exact .inl (equivalent_of_structural a b fits others collides same)

section Retold

def leaf (number : Nat) (text : String) : Node :=
  .scalar { id := ⟨number⟩, tag := CoreTag.str } text

def aliased (number : Nat) (target : Node) : Node := .aliasTo { id := ⟨number⟩, tag := "" } target

/-- A mapping whose two keys share a value. -/
def told : Node := .mapping { id := ⟨0⟩, tag := CoreTag.map }
  [(leaf 1 "x", leaf 2 "1"), (leaf 3 "y", leaf 2 "1")]

/-- The same with the keys the other way round, a key behind two aliases and a value behind one. -/
def retold : Node := .mapping { id := ⟨4⟩, tag := CoreTag.map }
  [(aliased 5 (aliased 6 (leaf 3 "y")), leaf 7 "1"), (leaf 8 "x", aliased 9 (leaf 7 "1"))]

theorem mem_told {m : Node} (reached : told.Reaches m) :
    m ∈ [told, leaf 1 "x", leaf 2 "1", leaf 3 "y"] := by
  apply Node.mem_of_reaches _ _ reached
  · simp [told, leaf, Node.Edge, Node.children, Node.aliasTarget?]
  · simp

theorem mem_retold {m : Node} (reached : retold.Reaches m) :
    m ∈ [retold, aliased 5 (aliased 6 (leaf 3 "y")), aliased 6 (leaf 3 "y"), leaf 3 "y",
      leaf 7 "1", leaf 8 "x", aliased 9 (leaf 7 "1")] := by
  apply Node.mem_of_reaches _ _ reached
  · simp [retold, aliased, leaf, Node.Edge, Node.children, Node.aliasTarget?]
  · simp

theorem hash_decides_equivalence_retold :
    told.ShortChains ∧ retold.ShortChains ∧ told.TagsFit ∧ retold.TagsFit ∧
      told.Equivalent retold ∧
      hashNode (some [7]) told = hashNode (some [7]) retold ∧
      (told.Equivalent retold ∨ Collides [7] told retold) := by
  have short : told.ShortChains := by
    intro m reached
    have here := mem_told reached
    simp only [List.mem_cons, List.not_mem_nil, or_false] at here
    obtain rfl | rfl | rfl | rfl := here <;> decide
  have shortToo : retold.ShortChains := by
    intro m reached
    have here := mem_retold reached
    simp only [List.mem_cons, List.not_mem_nil, or_false] at here
    obtain rfl | rfl | rfl | rfl | rfl | rfl | rfl := here <;> decide
  have small : ∀ tag ∈ ["", CoreTag.str, CoreTag.map], (utf8Bytes tag).length < 256 ^ 8 := by
    simp only [utf8Bytes_eq]
    decide
  have fits : told.TagsFit := by
    intro m reached
    have here := mem_told reached
    simp only [List.mem_cons, List.not_mem_nil, or_false] at here
    apply small
    obtain rfl | rfl | rfl | rfl := here <;> decide
  have fitsToo : retold.TagsFit := by
    intro m reached
    have here := mem_retold reached
    simp only [List.mem_cons, List.not_mem_nil, or_false] at here
    apply small
    obtain rfl | rfl | rfl | rfl | rfl | rfl | rfl := here <;> decide
  have same : told.Equivalent retold :=
    .mapping rfl rfl (.swap _ _ [])
      (.cons (.scalar rfl rfl rfl) (.cons (.scalar rfl rfl rfl) .nil))
      (.cons (.scalar rfl rfl rfl) (.cons (.scalar rfl rfl rfl) .nil))
  obtain ⟨equal, apart⟩ := hash_decides_equivalence (some [7]) short shortToo
  exact ⟨short, shortToo, fits, fitsToo, same, equal same, apart fits fitsToo (equal same)⟩

end Retold

end DocRefs.Engine
