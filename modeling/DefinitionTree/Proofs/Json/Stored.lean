/-
DefinitionTree/Proofs/Json/Stored.lean

What is stored comes back.

In store a reference is a mapping with the full name of the place that it refers
to.  A full name without full stops in its segments is cut into just these, so it
denotes the same place again; and as long as no mapping has the form of a stored
reference itself, nothing else is taken for one.  What a reference resolved to is
not stored, and this is all that is lost.

Main definitions and statements:

* `ElementId.ofFullName?_fullName`: full names that are read back;
* `Tree.unresolving`: references without what they resolved to;
* `Tree.IsStorable`, `Tree.ofStored_stored`: trees that come back.
-/
import DefinitionTree.Json.Stored
import DefinitionTree.Proofs.Tree.Leaves

namespace DefinitionTree

/-! ### Full names -/

namespace ElementId

/-- No segment of the full name holds a full stop. -/
structure IsDotless (id : ElementId) : Prop where
  adapter : '.' ∉ id.adapter.toList
  typeName : '.' ∉ id.typeName.toList
  idType : '.' ∉ id.idType.toList
  parts : ∀ s ∈ id.parts, '.' ∉ s.toList

theorem IsDotless.segments {id : ElementId} (h : id.IsDotless) :
    ∀ s ∈ id.segments, '.' ∉ s.toList := by
  intro s mem
  rw [ElementId.segments, List.mem_cons, List.mem_cons] at mem
  rcases mem with rfl | rfl | mem
  · exact h.adapter
  · exact h.typeName
  · split at mem
    · cases mem
    · rcases List.mem_cons.mp mem with rfl | mem
      · exact h.idType
      · exact h.parts s mem

/-- The id type is left out just where it is put in again. -/
theorem ofSegments?_segments (id : ElementId) : ofSegments? id.segments = some id := by
  obtain ⟨adapter, typeName, idType, parts⟩ := id
  by_cases short : idType = typeId ∧ parts = []
  · obtain ⟨rfl, rfl⟩ := short
    rfl
  · rw [segments, if_neg short]
    rfl

/-- A full name without other full stops denotes its id. -/
theorem ofFullName?_fullName {id : ElementId} (h : id.IsDotless) :
    ofFullName? id.fullName = some id := by
  rw [ofFullName?, fullName, Text.segments_dotted id.segments_ne_nil h.segments,
    ofSegments?_segments]

end ElementId

namespace Tree

/-! ### What references resolved to -/

/-- References without what they resolved to, as a function of leaves. -/
def unresolving : LeafMap where
  apply
    | .ref id _ => .ref id .null
    | t => t
  isLeaf t scalar := by
    cases t with
    | ref => rfl
    | _ => exact scalar
  null_iff t := by cases t <;> simp

/-- No reference in the tree holds what it resolved to. -/
def IsUnresolved (t : Tree) : Prop := ∀ id target, (ref id target).IsIn t → target = .null

/-- Forgetting what references resolved to leaves an unresolved tree as it is. -/
theorem IsUnresolved.eq_self {t : Tree} (h : t.IsUnresolved) : t.mapLeaves unresolving = t := by
  refine mapLeaves_eq_self fun u inside scalar => ?_
  cases u with
  | ref id target =>
    rw [h id target inside]
    rfl
  | _ => rfl

/-! ### Out of store -/

/-- The tree can be told from its references in store: no mapping in it looks like
one, and every full name denotes its id. -/
structure IsStorable (t : Tree) : Prop where
  plain : ∀ name, ¬(map [(.text refKey, .text name)]).IsIn t
  dotless : ∀ id target, (ref id target).IsIn t → id.IsDotless

theorem IsStorable.of_isIn {t u : Tree} (h : t.IsStorable) (inside : u.IsIn t) : u.IsStorable where
  plain name found := h.plain name (found.trans inside)
  dotless id target found := h.dotless id target (found.trans inside)

theorem isStorable_ref {id : ElementId} (dotless : id.IsDotless) (target : Tree) :
    (ref id target).IsStorable where
  plain name found := nomatch found
  dotless id' target' found := by
    cases found
    exact dotless

theorem isStorable_text (s : String) : (text s).IsStorable where
  plain _ found := nomatch found
  dotless _ _ found := nomatch found

theorem IsStorable.map {es : Entries} (plain : ∀ name, es ≠ [(.text refKey, .text name)])
    (each : ∀ e ∈ es, e.2.IsStorable) : (map es).IsStorable where
  plain name found := by
    cases found with
    | self => exact plain name rfl
    | entry mem inside => exact (each _ mem).plain name inside
  dotless id target found := by
    cases found with
    | entry mem inside => exact (each _ mem).dotless id target inside

/-- What is stored is no text unless it was one. -/
theorem stored_eq_text_iff {t : Tree} {s : String} : t.stored = .text s ↔ t = .text s := by
  cases t <;> simp [stored, storedRef]

/-- No other mapping is taken for a stored reference. -/
theorem refName?_storedEntries {es : Entries} (plain : ∀ name, es ≠ [(.text refKey, .text name)]) :
    refName? (storedEntries es) = none := by
  rw [refName?.eq_def]
  split
  · rename_i k name eq
    rcases es with - | ⟨⟨k', t⟩, - | ⟨e, es⟩⟩
    · cases eq
    · obtain ⟨rfl, text⟩ := Prod.mk.inj (List.cons.inj eq).1
      obtain rfl := stored_eq_text_iff.mp text
      exact if_neg fun isKey => plain name (by rw [isKey])
    · cases (List.cons.inj eq).2
  · rfl

theorem ofStoredItems_stored {ts : List Tree}
    (each : ∀ t ∈ ts, t.stored.ofStored = .ok (t.mapLeaves unresolving)) :
    ofStoredItems (storedItems ts) = .ok (mapItems unresolving ts) := by
  induction ts with
  | nil => rfl
  | cons t ts ih =>
    obtain ⟨here, there⟩ := List.forall_mem_cons.mp each
    rw [storedItems, ofStoredItems, here, ih there]
    rfl

theorem ofStoredEntries_stored {es : Entries}
    (each : ∀ e ∈ es, e.2.stored.ofStored = .ok (e.2.mapLeaves unresolving)) :
    ofStoredEntries (storedEntries es) = .ok (mapValues unresolving es) := by
  induction es with
  | nil => rfl
  | cons e es ih =>
    obtain ⟨here, there⟩ := List.forall_mem_cons.mp each
    rw [storedEntries, ofStoredEntries, here, ih there]
    rfl

/-- What is stored comes back, but for what its references resolved to. -/
theorem ofStored_stored {t : Tree} (h : t.IsStorable) :
    t.stored.ofStored = .ok (t.mapLeaves unresolving) := by
  induction t using Tree.induct with
  | leaf t scalar =>
    cases t with
    | list => cases scalar
    | map => cases scalar
    | ref id target =>
      show refOfName id.fullName = _
      rw [refOfName, ElementId.ofFullName?_fullName (h.dotless id target (.self _))]
      rfl
    | _ => rfl
  | list ts ih =>
    rw [stored, ofStored, ofStoredItems_stored fun t mem =>
      ih t mem (h.of_isIn (.item mem (.self t)))]
    rfl
  | map es ih =>
    have notRef : refName? (storedEntries es) = none :=
      refName?_storedEntries fun name eq => h.plain name (eq ▸ .self _)
    rw [stored, ofStored, notRef, ofStoredEntries_stored fun e mem =>
      ih e mem (h.of_isIn (.entry mem (.self e.2)))]
    rfl

end Tree

end DefinitionTree
