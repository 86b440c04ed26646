/-
DefinitionTree/Proofs/Canonical/Residue.lean

What is left of a definition.

Normalizing leaves out whatever comes out empty, so a value leaves nothing if
nothing is left of anything that it is decoded to.  A definition may leave
something that is no mapping: if it is a sentinel as a whole, it stands for a list,
a truth value or a text.  And a value that is refused makes the run fail.  Apart from
these two, normalizing gives a mapping or nothing.

Main definitions and statements:

* `Normalizer.exists_items`, `Normalizer.exists_entries`: what a run that succeeds
  was put together from, and `Normalizer.gives_items`, `Normalizer.gives_entries` back;
* `Normalizer.Vanishes`: values of which nothing is left;
* `Normalizer.normalize_isMapping_iff`: which definitions come out as mappings.
-/
import DefinitionTree.Proofs.Canonical.Step
import DefinitionTree.Schema.Dataset

namespace DefinitionTree

/-- Every type counts somewhere. -/
theorem Graph.exists_counts (g : Graph) (type : Option TypeRef) : ∃ place, g.Counts type place :=
  ⟨⟨"", "", "", ["", ""]⟩, counts_of_lt (by decide)⟩

namespace Normalizer

variable {n : Normalizer} {type : Option TypeRef} {t u : Tree}

/-! ### Runs that succeed -/

/-- There is just one thing that normalizing gives. -/
theorem Gives.unique {x y : Except Failure Tree} (h : n.Gives type t x) (h' : n.Gives type t y) :
    x = y := by
  obtain ⟨place, counts⟩ := n.graph.exists_counts type
  rw [← h place counts, ← h' place counts]

/-- What is normalized is decoded first. -/
theorem exists_decodesTo (gives : n.Gives type t (.ok u)) : ∃ w, n.DecodesTo type t w := by
  refine (n.decodesTo_or_refuses type t).resolve_right ?_
  rintro ⟨f, refuses⟩
  cases refuses.gives.unique gives

/-- What one run gives, every run gives. -/
theorem gives_of_outcome {place : ElementId} {x : Except Failure Tree}
    (counts : n.graph.Counts type place) (h : (n.walk type place t).outcome = x) :
    n.Gives type t x := by
  obtain ⟨y, gives⟩ := n.exists_gives type t
  rwa [← h, gives place counts]

/-- A list is made of what its items were normalized to, as far as anything is left of
them. -/
theorem exists_items {ts : List Tree} (decodes : n.DecodesTo type t (.list ts))
    (gives : n.Gives type t (.ok u)) :
    ∃ us, List.Forall₂ (fun w v => n.Gives (Graph.itemType type) w (.ok v)) ts us ∧
      u = .list (us.filter fun v => !v.isEmpty) := by
  obtain ⟨place, counts⟩ := n.graph.exists_counts type
  have outcome := gives place counts
  rw [outcome_walk, counts.stands, decodes place] at outcome
  obtain ⟨vs, walked, rfl⟩ := map_eq_ok_iff.mp outcome
  obtain ⟨us, each, rfl⟩ := forall₂_of_walkItems
    (fun index _ _ _ item => gives_of_outcome (Graph.counts_item counts.deep index) item) walked
  exact ⟨us, each, rfl⟩

/-- A mapping is made of what its values were normalized to, as far as anything is left of
them. -/
theorem exists_entries {es : Entries} (decodes : n.DecodesTo type t (.map es))
    (gives : n.Gives type t (.ok u)) :
    ∃ us : Entries, List.Forall₂ (fun e f => e.1 = f.1 ∧
        n.Gives (n.graph.fieldType type e.1) e.2 (.ok f.2)) es us ∧
      u = .map (us.filter fun f => !f.2.isEmpty) := by
  obtain ⟨place, counts⟩ := n.graph.exists_counts type
  have outcome := gives place counts
  rw [outcome_walk, counts.stands, decodes place] at outcome
  obtain ⟨vs, walked, rfl⟩ := map_eq_ok_iff.mp outcome
  obtain ⟨us, each, rfl⟩ := forall₂_of_walkEntries
    (R := fun e v => n.Gives (n.graph.fieldType type e.1) e.2 (.ok v))
    (fun e _ _ value => gives_of_outcome (Graph.counts_entry counts.deep e.1) value) walked
  exact ⟨us, each, rfl⟩

/-- A value that is decoded to a list is normalized to the list of whatever is left of the
items. -/
theorem gives_items {ts us : List Tree} (decodes : n.DecodesTo type t (.list ts))
    (each : List.Forall₂ (fun w v => n.Gives (Graph.itemType type) w (.ok v)) ts us) :
    n.Gives type t (.ok (.list (us.filter fun v => !v.isEmpty))) := by
  have outcomes : List.Forall₂ (fun w x => n.Gives (Graph.itemType type) w x) ts (us.map .ok) :=
    List.forall₂_map_right_iff.mpr each
  have items := givesItems_of_forall₂ outcomes
  rw [collectItems_ok] at items
  exact gives_of_decode_list decodes items

/-- A value that is decoded to a mapping is normalized to the mapping of whatever is left
of the values. -/
theorem gives_entries {es us : Entries} (decodes : n.DecodesTo type t (.map es))
    (each : List.Forall₂ (fun e f => e.1 = f.1 ∧
      n.Gives (n.graph.fieldType type e.1) e.2 (.ok f.2)) es us) :
    n.Gives type t (.ok (.map (us.filter fun f => !f.2.isEmpty))) := by
  have outcomes : List.Forall₂ (fun e x => e.1 = x.1 ∧
      n.Gives (n.graph.fieldType type e.1) e.2 x.2) es (us.map fun f => (f.1, .ok f.2)) :=
    List.forall₂_map_right_iff.mpr each
  have entries := givesEntries_of_forall₂ outcomes
  rw [collect_ok] at entries
  exact gives_of_decode_map decodes entries

/-! ### Values of which nothing is left -/

/-- Nothing is left of the value: it stands for null, or nothing is left of anything
in what it stands for. -/
inductive Vanishes (n : Normalizer) : Option TypeRef → Tree → Prop
  | null {type : Option TypeRef} {t : Tree} : n.DecodesTo type t .null → Vanishes n type t
  | list {type : Option TypeRef} {t : Tree} {ts : List Tree} :
    n.DecodesTo type t (.list ts) → (∀ u ∈ ts, Vanishes n (Graph.itemType type) u) →
      Vanishes n type t
  | map {type : Option TypeRef} {t : Tree} {es : Entries} :
    n.DecodesTo type t (.map es) → (∀ e ∈ es, Vanishes n (n.graph.fieldType type e.1) e.2) →
      Vanishes n type t

theorem vanishes_list_iff {ts : List Tree} (decodes : n.DecodesTo type t (.list ts)) :
    n.Vanishes type t ↔ ∀ u ∈ ts, n.Vanishes (Graph.itemType type) u := by
  refine ⟨fun gone => ?_, .list decodes⟩
  cases gone with
  | null decodes' => cases decodes.unique decodes'
  | list decodes' all =>
    cases decodes.unique decodes'
    exact all
  | map decodes' => cases decodes.unique decodes'

theorem vanishes_map_iff {es : Entries} (decodes : n.DecodesTo type t (.map es)) :
    n.Vanishes type t ↔ ∀ e ∈ es, n.Vanishes (n.graph.fieldType type e.1) e.2 := by
  refine ⟨fun gone => ?_, .map decodes⟩
  cases gone with
  | null decodes' => cases decodes.unique decodes'
  | list decodes' => cases decodes.unique decodes'
  | map decodes' all =>
    cases decodes.unique decodes'
    exact all

theorem vanishes_leaf_iff (scalar : u.key?.isSome = true) (decodes : n.DecodesTo type t u) :
    n.Vanishes type t ↔ u = .null := by
  constructor
  · intro gone
    cases gone with
    | null decodes' => exact decodes.unique decodes'
    | list decodes' =>
      cases decodes.unique decodes'
      cases scalar
    | map decodes' =>
      cases decodes.unique decodes'
      cases scalar
  · rintro rfl
    exact .null decodes

/-- What a value is normalized to is empty if nothing is left of the value.  The
induction is on the size, since what a value is decoded to need not be a part of
it. -/
theorem isEmpty_iff_vanishes (gives : n.Gives type t (.ok u)) :
    u.isEmpty = true ↔ n.Vanishes type t := by
  induction size : t.size using Nat.strongRecOn generalizing t u type with
  | ind size ih =>
    subst size
    obtain ⟨w, decodes⟩ := exists_decodesTo gives
    have smaller : w.content < t.size := content_lt_of_decode (decodes default)
    cases w with
    | list ts =>
      obtain ⟨us, each, rfl⟩ := exists_items decodes gives
      have inside {w v : Tree} (mem : w ∈ ts) (gives : n.Gives (Graph.itemType type) w (.ok v)) :
          v.isEmpty = true ↔ n.Vanishes (Graph.itemType type) w :=
        ih w.size (Nat.lt_of_le_of_lt (Tree.size_le_sizeItems mem) smaller) gives rfl
      rw [vanishes_list_iff decodes, Tree.isEmpty, List.isEmpty_iff, List.filter_eq_nil_iff]
      simp only [Bool.not_eq_true', Bool.not_eq_false]
      constructor
      · intro all w mem
        obtain ⟨v, there, gives⟩ := exists_of_forall₂ each.flip mem
        exact (inside mem gives).mp (all v there)
      · intro all v mem
        obtain ⟨w, there, gives⟩ := exists_of_forall₂ each mem
        exact (inside there gives).mpr (all w there)
    | map es =>
      obtain ⟨us, each, rfl⟩ := exists_entries decodes gives
      have inside {e f : Key × Tree} (mem : e ∈ es)
          (gives : n.Gives (n.graph.fieldType type e.1) e.2 (.ok f.2)) :
          f.2.isEmpty = true ↔ n.Vanishes (n.graph.fieldType type e.1) e.2 :=
        ih e.2.size (Nat.lt_of_le_of_lt (Tree.size_le_sizeEntries mem) smaller) gives rfl
      rw [vanishes_map_iff decodes, Tree.isEmpty, List.isEmpty_iff, List.filter_eq_nil_iff]
      simp only [Bool.not_eq_true', Bool.not_eq_false]
      constructor
      · intro all e mem
        obtain ⟨f, there, _, gives⟩ := exists_of_forall₂ each.flip mem
        exact (inside mem gives).mp (all f there)
      · intro all f mem
        obtain ⟨e, there, _, gives⟩ := exists_of_forall₂ each mem
        exact (inside there gives).mpr (all e there)
    | _ =>
      cases gives.unique (gives_of_decode rfl decodes)
      rw [vanishes_leaf_iff rfl decodes, Tree.isEmpty_leaf_iff rfl]

/-! ### Whole definitions -/

/-- The definition as a whole is a sentinel of a list of which something is left, or
of a truth value or a text. -/
def StandsForOther (n : Normalizer) (es : Entries) : Prop :=
  match Wire.sentinelOf? es with
  | none => False
  | some .null => False
  | some .array => ∃ t ∈ Wire.items (Entries.get? Wire.itemKey es), ¬n.Vanishes none t
  | some .boolean => True
  | some .string => True

/-- Without such a mark a mapping is decoded to a mapping. -/
theorem isMap_of_decodesTo {es : Entries} (mark : Wire.sentinelOf? es = none)
    (decodes : n.DecodesTo type (.map es) u) : u.isMap = true := by
  cases opens_of_decode mark (decodes default) with
  | array marked =>
    rw [mark] at marked
    cases marked
  | _ => rfl

/-- What a mapping of the root type is normalized to is a mapping or empty, unless the
whole mapping stands for something else. -/
theorem isMap_or_isEmpty_iff {es : Entries}
    (gives : n.Gives (some n.graph.rootRef) (.map es) (.ok u)) :
    (u.isMap = true ∨ u.isEmpty = true) ↔ ¬n.StandsForOther es := by
  obtain ⟨w, decodes⟩ := exists_decodesTo gives
  rcases mark : Wire.sentinelOf? es with - | s
  · have isMap := isMap_of_decodesTo mark decodes
    cases w with
    | map fs =>
      obtain ⟨us, -, rfl⟩ := exists_entries decodes gives
      simp [StandsForOther, mark, Tree.isMap]
    | _ => cases isMap
  · have decoded : Wire.decodeAs s es = .ok w := (decode_sentinel mark default).symm.trans
      (decodes default)
    cases s with
    | null =>
      cases decoded
      obtain ⟨us, -, rfl⟩ := exists_entries decodes gives
      simp [StandsForOther, mark, Tree.isMap]
    | array =>
      cases decoded
      have gone := (isEmpty_iff_vanishes gives).trans (vanishes_list_iff decodes)
      obtain ⟨us, -, rfl⟩ := exists_items decodes gives
      rw [gone]
      simp [StandsForOther, mark, Tree.isMap, Graph.itemType, Graph.rootRef]
    | boolean =>
      obtain ⟨text, -, rfl⟩ := map_eq_ok_iff.mp decoded
      cases gives.unique (gives_of_decode rfl decodes)
      simp [StandsForOther, mark, Tree.isMap, Tree.isEmpty]
    | string =>
      obtain ⟨text, -, rfl⟩ := map_eq_ok_iff.mp decoded
      cases gives.unique (gives_of_decode rfl decodes)
      simp [StandsForOther, mark, Tree.isMap, Tree.isEmpty]

/-- What normalizing a whole definition gives. -/
theorem outcome_normalize {place : ElementId} (deep : rootDepth ≤ place.depth)
    {x : Except Failure Tree} (gives : n.Gives (some n.graph.rootRef) t x) :
    (n.normalize place t).outcome
      = x >>= fun u => .ok (if u.isEmpty then none else some u) := by
  rw [normalize, Journal.outcome_bind, gives place (Graph.counts_root deep)]
  rfl

/-- **Which definitions come out as mappings.**  Normalizing a mapping gives a mapping
or nothing if and only if nothing in it is refused, and it does not stand for something
else as a whole. -/
theorem normalize_isMapping_iff {place : ElementId} (deep : rootDepth ≤ place.depth)
    (es : Entries) :
    (∃ r, (n.normalize place (.map es)).outcome = .ok r ∧ ∀ u, r = some u → u.isMap = true) ↔
      ¬n.MeetsRefusal (some n.graph.rootRef) (.map es) ∧ ¬n.StandsForOther es := by
  rcases isDecided (.map es) (some n.graph.rootRef) with
    ⟨⟨u, gives⟩, clean⟩ | ⟨⟨f, gives⟩, meets⟩
  · rw [outcome_normalize deep gives, ← isMap_or_isEmpty_iff gives]
    show (∃ r, Except.ok (if u.isEmpty = true then none else some u) = Except.ok r ∧ _) ↔ _
    simp only [Except.ok.injEq, exists_eq_left', clean, not_false_eq_true, true_and]
    rcases u.isEmpty
    · simp
    · simp
  · rw [outcome_normalize deep gives]
    refine iff_of_false ?_ fun clean => clean.1 meets
    rintro ⟨r, failed, _⟩
    cases failed

/-- A dataset with an id comes out as a mapping. -/
theorem normalize_isMapping_id :
    rootDepth ≤ (ElementId.ofInstance "netsuite" "dataset" "x1").depth ∧
    ∃ r, (normalize ⟨Schema.dataset, none, {}⟩ (.ofInstance "netsuite" "dataset" "x1")
        (.map [(.text "id", .int 3)])).outcome = .ok r ∧ ∀ u, r = some u → u.isMap = true := by
  have deep : rootDepth ≤ (ElementId.ofInstance "netsuite" "dataset" "x1").depth := by decide
  refine ⟨deep, (normalize_isMapping_iff deep _).mpr ⟨?_, fun other => other⟩⟩
  rw [meetsRefusal_map_iff fun _ => rfl]
  rintro ⟨e, mem, meets⟩
  rw [List.mem_singleton.mp mem] at meets
  exact not_meetsRefusal_leaf (u := .int 3) rfl (fun _ => rfl) meets

/-- A list as the tag of criteria makes normalizing fail, and a dataset that is the
sentinel of a truth value comes out as one. -/
theorem normalize_listTag_booleanRoot :
    (normalize ⟨Schema.dataset, none, {}⟩ (.ofInstance "netsuite" "dataset" "x1")
        (.map [(.text "criteria",
          .map [(Wire.tagKey, .list [.text "a"]), (.text "x", .int 1)])])).outcome
      = .error .compoundTag ∧
    (normalize ⟨Schema.dataset, none, {}⟩ (.ofInstance "netsuite" "dataset" "x1")
        (.map [(Wire.typeKey, .text "boolean"), (Wire.textKey, .text "true")])).outcome
      = .ok (some (.bool true)) := by
  have deep : rootDepth ≤ (ElementId.ofInstance "netsuite" "dataset" "x1").depth := by decide
  let n : Normalizer := ⟨Schema.dataset, none, {}⟩
  let fs : Entries := [(Wire.tagKey, .list [.text "a"]), (.text "x", .int 1)]
  constructor
  · have refuses : n.Refuses (n.graph.fieldType (some n.graph.rootRef) (.text "criteria"))
        (.map fs) .compoundTag := .compoundTag rfl rfl rfl rfl
    have entries : n.GivesEntries (some n.graph.rootRef) [(.text "criteria", .map fs)]
        (collect [(.text "criteria", .error .compoundTag)]) :=
      givesEntries_of_forall₂ (.cons ⟨rfl, refuses.gives⟩ .nil)
    exact outcome_normalize deep (gives_of_decode_map (fun _ => rfl) entries)
  · exact outcome_normalize deep (n := n) (gives_boolean (s := "true") rfl rfl)

end Normalizer

end DefinitionTree
