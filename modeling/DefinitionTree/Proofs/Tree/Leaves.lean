/-
DefinitionTree/Proofs/Tree/Leaves.lean

The leaves of a tree, and functions of them.

The scalars and references of a tree are its leaves.  A function of leaves
changes a tree leaf by leaf and leaves everything else alone: the keys of its
mappings, the number of its items, and what is empty in it.  So it commutes with
whatever looks at keys alone: taking entries out, putting some in, and looking
one up.

Main definitions and statements:

* `Tree.Holds`: some leaf of the tree is like this;
* `LeafMap`, `Tree.mapLeaves`: functions of leaves, and a tree under one;
* `Tree.get?_mapValues`, `Tree.without_mapValues`, `Tree.overlay_mapValues`:
  what they commute with.
-/
import DefinitionTree.Proofs.Tree.Induction

namespace DefinitionTree

namespace Tree

/-! ### Leaves like this -/

/-- Somewhere in the tree stands a scalar like this. -/
inductive Holds (p : Tree → Prop) : Tree → Prop
  | leaf {t : Tree} : t.key?.isSome = true → p t → Holds p t
  | item {ts : List Tree} {t : Tree} : t ∈ ts → Holds p t → Holds p (.list ts)
  | entry {es : Entries} {e : Key × Tree} : e ∈ es → Holds p e.2 → Holds p (.map es)

variable {p : Tree → Prop}

theorem holds_leaf_iff {t : Tree} (scalar : t.key?.isSome = true) : t.Holds p ↔ p t := by
  constructor
  · intro h
    cases h with
    | leaf _ h => exact h
    | item => cases scalar
    | entry => cases scalar
  · exact .leaf scalar

@[simp] theorem holds_list_iff {ts : List Tree} : (Tree.list ts).Holds p ↔ ∃ t ∈ ts, t.Holds p := by
  constructor
  · intro h
    cases h with
    | leaf scalar => cases scalar
    | item mem h => exact ⟨_, mem, h⟩
  · rintro ⟨t, mem, h⟩
    exact .item mem h

@[simp] theorem holds_map_iff {es : Entries} : (Tree.map es).Holds p ↔ ∃ e ∈ es, e.2.Holds p := by
  constructor
  · intro h
    cases h with
    | leaf scalar => cases scalar
    | entry mem h => exact ⟨_, mem, h⟩
  · rintro ⟨e, mem, h⟩
    exact .entry mem h

end Tree

/-! ### Functions of leaves -/

/-- A function of leaves: it gives leaves, and null for null alone. -/
structure LeafMap where
  apply : Tree → Tree
  isLeaf : ∀ t, t.key?.isSome = true → (apply t).key?.isSome = true
  null_iff : ∀ t, apply t = .null ↔ t = .null

namespace Tree

mutual

/-- The tree with a function applied to its leaves. -/
def mapLeaves (f : LeafMap) : Tree → Tree
  | .list ts => .list (mapItems f ts)
  | .map es => .map (mapValues f es)
  | t => f.apply t

/-- The items with a function applied to their leaves. -/
def mapItems (f : LeafMap) : List Tree → List Tree
  | [] => []
  | t :: ts => t.mapLeaves f :: mapItems f ts

/-- The entries with a function applied to the leaves of their values. -/
def mapValues (f : LeafMap) : Entries → Entries
  | [] => []
  | (k, t) :: es => (k, t.mapLeaves f) :: mapValues f es

end

variable {f : LeafMap}

@[simp] theorem mapLeaves_list (ts : List Tree) : (list ts).mapLeaves f = .list (mapItems f ts) := rfl

@[simp] theorem mapLeaves_map (es : Entries) : (map es).mapLeaves f = .map (mapValues f es) := rfl

theorem mapItems_eq_map (ts : List Tree) : mapItems f ts = ts.map (mapLeaves f) := by
  induction ts with
  | nil => rfl
  | cons t ts ih => rw [mapItems, ih, List.map_cons]

theorem mapValues_eq_map (es : Entries) :
    mapValues f es = es.map fun e => (e.1, e.2.mapLeaves f) := by
  induction es with
  | nil => rfl
  | cons e es ih =>
    obtain ⟨k, t⟩ := e
    rw [mapValues, ih, List.map_cons]

theorem mapLeaves_leaf {t : Tree} (scalar : t.key?.isSome = true) :
    t.mapLeaves f = f.apply t := by
  cases t with
  | list => cases scalar
  | map => cases scalar
  | _ => rfl

/-- A tree whose leaves stay as they are stays as it is. -/
theorem mapLeaves_eq_self {t : Tree}
    (leaves : ∀ u : Tree, u.IsIn t → u.key?.isSome = true → f.apply u = u) :
    t.mapLeaves f = t := by
  induction t using Tree.induct with
  | leaf t scalar => rw [mapLeaves_leaf scalar, leaves t (.self t) scalar]
  | list ts ih =>
    have same : ts.map (mapLeaves f) = ts.map id := List.map_congr_left fun t mem =>
      ih t mem fun u inside => leaves u (.item mem inside)
    rw [mapLeaves_list, mapItems_eq_map, same, List.map_id]
  | map es ih =>
    have same : es.map (fun e => (e.1, e.2.mapLeaves f)) = es.map id :=
      List.map_congr_left fun e mem =>
        Prod.ext rfl (ih e mem fun u inside => leaves u (.entry mem inside))
    rw [mapLeaves_map, mapValues_eq_map, same, List.map_id]

/-- A second function that does not tell what the first one did makes up for it. -/
theorem mapLeaves_mapLeaves {g : LeafMap} (absorbs : ∀ t, g.apply (f.apply t) = g.apply t)
    (t : Tree) : (t.mapLeaves f).mapLeaves g = t.mapLeaves g := by
  induction t using Tree.induct with
  | leaf t scalar =>
    rw [mapLeaves_leaf scalar, mapLeaves_leaf (f.isLeaf t scalar), mapLeaves_leaf scalar, absorbs]
  | list ts ih =>
    rw [mapLeaves_list, mapLeaves_list, mapLeaves_list, mapItems_eq_map, mapItems_eq_map,
      mapItems_eq_map, List.map_map]
    exact congrArg list (List.map_congr_left ih)
  | map es ih =>
    rw [mapLeaves_map, mapLeaves_map, mapLeaves_map, mapValues_eq_map, mapValues_eq_map,
      mapValues_eq_map, List.map_map]
    exact congrArg map (List.map_congr_left fun e mem => Prod.ext rfl (ih e mem))

/-- What comes of a leaf is a leaf. -/
theorem isLeaf_mapLeaves {t : Tree} (scalar : t.key?.isSome = true) :
    (t.mapLeaves f).key?.isSome = true := by
  rw [mapLeaves_leaf scalar]
  exact f.isLeaf t scalar

@[simp] theorem mapLeaves_eq_null_iff {t : Tree} : t.mapLeaves f = .null ↔ t = .null := by
  cases t with
  | list => exact iff_of_false (by simp [mapLeaves]) (by simp)
  | map => exact iff_of_false (by simp [mapLeaves]) (by simp)
  | _ => exact f.null_iff _

theorem isEmpty_leaf_iff {t : Tree} (scalar : t.key?.isSome = true) :
    t.isEmpty = true ↔ t = .null := by
  cases t with
  | list => cases scalar
  | map => cases scalar
  | _ => simp [isEmpty]

/-- What is empty stays so, and nothing else becomes empty. -/
@[simp] theorem isEmpty_mapLeaves (t : Tree) : (t.mapLeaves f).isEmpty = t.isEmpty := by
  have leaf (scalar : t.key?.isSome = true) : (t.mapLeaves f).isEmpty = t.isEmpty := by
    rw [Bool.eq_iff_iff, isEmpty_leaf_iff scalar, isEmpty_leaf_iff (isLeaf_mapLeaves scalar),
      mapLeaves_eq_null_iff]
  cases t with
  | list ts => cases ts <;> rfl
  | map es => cases es <;> rfl
  | _ => exact leaf rfl

/-- Of two trees that look the same under the function, both are empty or neither is. -/
theorem isEmpty_of_mapLeaves_eq {t u : Tree} (h : t.mapLeaves f = u.mapLeaves f) :
    t.isEmpty = u.isEmpty := by
  rw [← isEmpty_mapLeaves t, h, isEmpty_mapLeaves]

/-- Functions of leaves do not change what is a mapping. -/
@[simp] theorem isMap_mapLeaves (t : Tree) : (t.mapLeaves f).isMap = t.isMap := by
  have leaf (scalar : t.key?.isSome = true) : (t.mapLeaves f).isMap = t.isMap := by
    rw [isMap_leaf scalar, isMap_leaf (isLeaf_mapLeaves scalar)]
  cases t with
  | list ts => rfl
  | map es => rfl
  | _ => exact leaf rfl

theorem isMap_of_mapLeaves_eq {t u : Tree} (h : t.mapLeaves f = u.mapLeaves f) :
    t.isMap = u.isMap := by
  rw [← isMap_mapLeaves t, h, isMap_mapLeaves]

/-- Of two trees that look the same under the function, both are null or neither is. -/
theorem eq_null_iff_of_mapLeaves_eq {t u : Tree} (h : t.mapLeaves f = u.mapLeaves f) :
    t = .null ↔ u = .null := by
  rw [← mapLeaves_eq_null_iff (f := f), h, mapLeaves_eq_null_iff]

/-! ### Entries -/

variable {es fs : Entries}

theorem get?_mapValues (k : Key) :
    Entries.get? k (mapValues f es) = (Entries.get? k es).map (mapLeaves f) := by
  induction es with
  | nil => rfl
  | cons e es ih =>
    obtain ⟨k', t⟩ := e
    rw [mapValues, Entries.get?, Entries.get?]
    split
    · rfl
    · exact ih

theorem has_mapValues (k : Key) : Entries.has k (mapValues f es) = Entries.has k es := by
  rw [Entries.has, Entries.has, get?_mapValues, Option.isSome_map]

theorem without_mapValues (ks : List Key) :
    Entries.without ks (mapValues f es) = mapValues f (Entries.without ks es) := by
  induction es with
  | nil => rfl
  | cons e es ih =>
    obtain ⟨k, t⟩ := e
    simp only [Entries.without] at ih ⊢
    rw [mapValues, List.filter_cons, List.filter_cons, ih]
    split <;> rfl

theorem set_mapValues (k : Key) (t : Tree) :
    Entries.set k (t.mapLeaves f) (mapValues f es) = mapValues f (Entries.set k t es) := by
  induction es with
  | nil => rfl
  | cons e es ih =>
    obtain ⟨k', u⟩ := e
    rw [mapValues, Entries.set, Entries.set]
    split
    · rfl
    · rw [ih]
      rfl

theorem overlay_mapValues (es : Entries) :
    Entries.overlay (mapValues f es) (mapValues f fs) = mapValues f (Entries.overlay es fs) := by
  induction fs generalizing es with
  | nil => rfl
  | cons e fs ih =>
    obtain ⟨k, t⟩ := e
    rw [mapValues, Entries.overlay, Entries.overlay, set_mapValues, ih]

theorem mapValues_append : mapValues f (es ++ fs) = mapValues f es ++ mapValues f fs := by
  induction es with
  | nil => rfl
  | cons e es ih =>
    rw [List.cons_append, mapValues, mapValues, ih]
    rfl

end Tree

end DefinitionTree
