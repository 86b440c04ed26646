/-
DefinitionTree/Proofs/Canonical/Direct.lean

Reading what was written, as it was written.

Here nothing stands between the two: the wire form itself is normalized.  All
that this takes of a scalar is that it is no number where a text is declared,
since it would come back as its text.

Main statements:

* `Passage.direct`: the direct passage;
* `Passage.restores_of_no_default`: in schemas without defaults what is put in
  vanishes again.
-/
import DefinitionTree.Proofs.Canonical.Mapping

namespace DefinitionTree

/-! ### The direct passage -/

/-- Every text and truth value is let in, and a number wherever no text is
declared. -/
def Admission.direct : Admission where
  leaf type t :=
    match t with
    | .text _ => True
    | .bool _ => True
    | .int _ => type.any (·.isString) = false
    | .float _ => type.any (·.isString) = false
    | _ => False
  name _ := True
  isScalar := by
    intro type t h
    cases t with
    | text _ => trivial
    | bool _ => trivial
    | int _ => trivial
    | float _ => trivial
    | _ => exact h

instance (type : Option TypeRef) (t : Tree) : Decidable (Admission.direct.leaf type t) :=
  match t with
  | .text _ => isTrue trivial
  | .bool _ => isTrue trivial
  | .int _ => inferInstanceAs (Decidable (type.any (·.isString) = false))
  | .float _ => inferInstanceAs (Decidable (type.any (·.isString) = false))
  | .null => isFalse id
  | .ref _ _ => isFalse id
  | .list _ => isFalse id
  | .map _ => isFalse id

instance (s : String) : Decidable (Admission.direct.name s) := isTrue trivial

namespace Passage

variable {n : Normalizer}

/-- A scalar in the sentinel it needs is decoded to itself. -/
theorem gives_wrap (lookup : n.lookup = none) {type : Option TypeRef} {t : Tree}
    (h : Admission.direct.leaf type t) : n.Gives type (Wire.wrap t) (.ok t) := by
  cases t with
  | text s =>
    rw [Wire.wrap]
    split
    · exact Normalizer.gives_string rfl (Tree.toText_text s)
    · exact Normalizer.gives_text (Normalizer.isUnresolved_of_no_lookup lookup s)
  | bool b =>
    have read : Wire.truth (.text (Tree.bool b).scalarText) = b := by cases b <;> decide
    have gives : n.Gives type (Wire.wrap (.bool b))
        (.ok (.bool (Wire.truth (.text (Tree.bool b).scalarText)))) :=
      Normalizer.gives_boolean rfl (Tree.toText_text _)
    rwa [read] at gives
  | int i => exact Normalizer.gives_number rfl (fun _ => rfl) h
  | float x => exact Normalizer.gives_number rfl (fun _ => rfl) h
  | null => exact h.elim
  | ref => exact h.elim
  | list => exact h.elim
  | map => exact h.elim

/-- What is written is what is read. -/
def direct (n : Normalizer) (lookup : n.lookup = none) : Passage n .direct where
  carries t w := w = t
  takes _ := True
  takes_leaf _ := trivial
  takes_mark _ := trivial
  takes_array _ _ := trivial
  takes_tag _ := trivial
  takes_map _ _ _ := trivial
  leaf := by
    rintro type t w h rfl
    exact gives_wrap lookup h
  mark := by
    rintro s w h rfl
    refine ⟨[s.mark], rfl, ?_, ?_⟩
    · rcases h with rfl | rfl <;> rfl
    · rfl
  array := by
    rintro ts w - - rfl
    refine ⟨[Wire.Sentinel.array.mark, (Wire.itemKey, .list ts)], rfl, rfl, ?_⟩
    exact List.forall₂_same.mpr fun _ _ => rfl
  tag := by
    rintro s w - rfl
    rw [Wire.wrap]
    split <;> rfl
  map := by
    rintro es w - - - rfl
    exact ⟨es, rfl, List.forall₂_same.mpr fun _ _ => ⟨rfl, rfl⟩⟩

/-! ### What bare placeholders come back as -/

end Passage

/-- What a placeholder that stands for nothing comes back as: no items, or no
entries. -/
def Placeholder.emptied (p : Placeholder) : Tree :=
  if Wire.sentinel? p.value = some .array then .list [] else .map []

theorem Placeholder.isEmpty_emptied (p : Placeholder) : p.emptied.isEmpty = true := by
  rw [emptied]
  split <;> rfl

namespace Passage

variable {n : Normalizer} {a : Admission} (p : Passage n a)

omit p in
/-- A sentinel of nothing comes back as nothing. -/
theorem gives_emptied {ph : Placeholder} {s : Wire.Sentinel} (empty : s = .null ∨ s = .array)
    (value : ph.value = .map [s.mark]) {type : Option TypeRef} {fs : Entries}
    (mark : Wire.sentinelOf? fs = some s) (noItems : Entries.get? Wire.itemKey fs = none) :
    n.Gives type (.map fs) (.ok ph.emptied) := by
  rw [Placeholder.emptied, value]
  rcases empty with rfl | rfl
  · exact Normalizer.gives_null mark
  · refine Normalizer.gives_array mark (x := .ok []) ?_
    rw [noItems]
    exact Normalizer.givesItems_of_forall₂ .nil

/-- A bare placeholder that was carried comes back as nothing. -/
theorem gives_bare {ph : Placeholder} (bare : ph.IsBare) {k : Key} {type : Option TypeRef}
    {w : Tree} (carries : p.carries (n.wireOf (some k) ph.value) w) :
    n.Gives type w (.ok ph.emptied) := by
  obtain ⟨s, empty, value⟩ := bare.value
  rw [value, Normalizer.wireOf, Wire.encodeAt_mark] at carries
  obtain ⟨fs, rfl, mark, noItems⟩ := p.mark empty carries
  exact gives_emptied empty value mark noItems

/-- A field whose placeholder is bare is restored to nothing. -/
theorem restores_bare {type : Option TypeRef} {f : Field}
    (bare : (n.graph.fieldPlaceholder f).IsBare) (name : a.name f.name) :
    (n.graph.fieldPlaceholder f).value ≠ .null ∧ a.name f.name ∧
    p.takes (n.wireOf (some (.text f.name)) (n.graph.fieldPlaceholder f).value) ∧
    ∀ w, p.carries (n.wireOf (some (.text f.name)) (n.graph.fieldPlaceholder f).value) w →
      n.Gives type w (.ok (n.graph.fieldPlaceholder f).emptied) := by
  obtain ⟨s, empty, value⟩ := bare.value
  refine ⟨by rw [value]; simp, name, ?_, fun w carries => p.gives_bare bare carries⟩
  rw [value, Normalizer.wireOf, Wire.encodeAt_mark]
  exact p.takes_mark empty

/-- Without defaults all that is put in comes back as nothing. -/
theorem restores_of_no_default (none : n.graph.HasNoDefaults)
    (names : ∀ t ∈ n.graph.types, ∀ f ∈ t.fields, a.name f.name) :
    p.Restores fun f => (n.graph.fieldPlaceholder f).emptied :=
  fun _ t f back => p.restores_bare (Graph.fieldPlaceholder_bare none back)
    (names t (Graph.mem_types_of_objectAt? back.object) f back.mem)

end Passage

end DefinitionTree
