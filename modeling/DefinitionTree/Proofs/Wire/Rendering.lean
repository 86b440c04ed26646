/-
DefinitionTree/Proofs/Wire/Rendering.lean

References are written like their texts.

Where a definition is written, a reference becomes its text before anything is
decided about it.  So the wire form of a tree is that of the tree in which every
reference was replaced by its text to begin with.  The one place where a text is
looked at earlier is the type attribute, and no text of a reference names a
sentinel there, because it has a full stop.

Main definitions and statements:

* `Localized.rendering`: references as texts, as a function of leaves;
* `Wire.sentinelOf?_rendered`, `Wire.collapseEntries_rendered`: what does not tell
  them apart;
* `Wire.encode_rendered`: nor does the wire form.
-/
import DefinitionTree.Proofs.Tree.Leaves
import DefinitionTree.Wire.Encoding

namespace DefinitionTree

open DefinitionTree.Tree (mapValues mapItems)

/-! ### Texts of references -/

namespace Localized

/-- References as texts. -/
def rendering : LeafMap where
  apply := render
  isLeaf t scalar := by
    cases t with
    | ref => rfl
    | _ => exact scalar
  null_iff t := by cases t <;> simp [render]

/-- What is no reference stays as it is. -/
theorem rendered_eq_self {t : Tree} (scalar : t.key?.isSome = true)
    (noRef : ∀ id target, t ≠ .ref id target) : t.mapLeaves rendering = t := by
  cases t with
  | list => cases scalar
  | map => cases scalar
  | ref id target => exact absurd rfl (noRef id target)
  | _ => rfl

/-- A full name has a full stop. -/
theorem dot_mem_fullName (id : ElementId) : '.' ∈ id.fullName.toList := by
  rw [ElementId.fullName, Text.dotted, String.toList_ofList, ElementId.segments]
  rw [List.map_cons, Text.join_cons (by simp)]
  exact List.mem_append_right _ List.mem_cons_self

/-- The text of a reference has a full stop. -/
theorem dot_mem_text (id : ElementId) : '.' ∈ (text id).toList := by
  unfold text
  split
  · simp
  · exact dot_mem_fullName id

end Localized

open Localized (rendering)

namespace Wire

/-- No text with a full stop names a sentinel. -/
theorem Sentinel.ofName?_eq_none {s : String} (dot : '.' ∈ s.toList) : ofName? s = none := by
  have ne {name : String} (plain : '.' ∉ name.toList) : s ≠ name := by
    rintro rfl
    exact plain dot
  rw [ofName?, if_neg (ne (by decide)), if_neg (ne (by decide)), if_neg (ne (by decide)),
    if_neg (ne (by decide))]

variable {es : Entries} {ks : List String}

/-! ### Before anything is rendered -/

theorem sentinelOf?_rendered : sentinelOf? (mapValues rendering es) = sentinelOf? es := by
  rw [sentinelOf?, sentinelOf?, Tree.get?_mapValues]
  rcases Entries.get? typeKey es with - | t
  · rfl
  · cases t with
    | ref id target =>
      show Sentinel.ofName? (Localized.text id) = none
      exact Sentinel.ofName?_eq_none (Localized.dot_mem_text id)
    | _ => rfl

theorem isTyped_rendered : isTyped (mapValues rendering es) = isTyped es :=
  Tree.has_mapValues typeKey

/-- A marked variant is one in either form. -/
theorem markedVariant?_rendered : markedVariant? (mapValues rendering es)
    = (markedVariant? es).map fun v => (v.1.mapLeaves rendering, mapValues rendering v.2) := by
  rcases es with - | ⟨⟨k₁, t₁⟩, - | ⟨⟨k₂, t₂⟩, - | ⟨e, es⟩⟩⟩
  · rfl
  · rfl
  · simp only [mapValues, markedVariant?]
    split
    · cases t₂ <;> rfl
    · split
      · cases t₁ <;> rfl
      · rfl
  · rfl

/-- What a mapping is collapsed to depends on the texts of its references only. -/
theorem collapseEntries_rendered (k : Key) : collapseEntries ks k (mapValues rendering es)
    = mapValues rendering (collapseEntries ks k es) := by
  unfold collapseEntries
  rw [sentinelOf?_rendered]
  split
  · rename_i discriminated
    have key : ∃ s, k = .text s := by
      cases k with
      | text s => exact ⟨s, rfl⟩
      | _ => simp [isDiscriminated, isAmong] at discriminated
    obtain ⟨s, rfl⟩ := key
    rw [Tree.without_mapValues]
    rfl
  · rw [Tree.get?_mapValues]
    rcases Entries.get? exposedKey es with - | tag
    · simp only [Option.map_none, markedVariant?_rendered]
      rcases markedVariant? es with - | ⟨tag, inner⟩
      · rfl
      · exact Tree.overlay_mapValues [(tagKey, tag)]
    · simp only [Option.map_some, Tree.without_mapValues]
      exact Tree.overlay_mapValues [(tagKey, tag)]

/-! ### Encoding -/

/-- A scalar is rendered before it gets its sentinel. -/
theorem encodeScalar_rendered (wraps : Bool) (t : Tree) :
    encodeScalar wraps (Localized.render t) = encodeScalar wraps t := by
  have twice : Localized.render (Localized.render t) = Localized.render t := by
    cases t <;> rfl
  rw [encodeScalar, encodeScalar, twice]

theorem encodeItems_rendered {ts : List Tree} {index : Nat}
    (each : ∀ t ∈ ts, ∀ wraps k, encodeAt ks wraps k (t.mapLeaves rendering) = encodeAt ks wraps k t) :
    encodeItems ks index (mapItems rendering ts) = encodeItems ks index ts := by
  induction ts generalizing index with
  | nil => rfl
  | cons t ts ih =>
    obtain ⟨here, there⟩ := List.forall_mem_cons.mp each
    rw [mapItems, encodeItems, encodeItems, here, ih there]

theorem encodeEntries_rendered {wraps : Bool}
    (each : ∀ e ∈ es, ∀ wraps k,
      encodeAt ks wraps k (e.2.mapLeaves rendering) = encodeAt ks wraps k e.2) :
    encodeEntries ks wraps (mapValues rendering es) = encodeEntries ks wraps es := by
  induction es with
  | nil => rfl
  | cons e es ih =>
    obtain ⟨k, t⟩ := e
    obtain ⟨here, there⟩ := List.forall_mem_cons.mp each
    rw [mapValues, encodeEntries, encodeEntries, here, ih there]

/-- What is encoded of a mapping is its collapsed form, which holds less than the
mapping itself. -/
theorem encodeAt_rendered (t : Tree) (wraps : Bool) (k : Key) :
    encodeAt ks wraps k (t.mapLeaves rendering) = encodeAt ks wraps k t := by
  induction size : t.size using Nat.strongRecOn generalizing t wraps k with
  | ind size ih =>
    subst size
    cases t with
    | list ts =>
      have inside : encodeItems ks 0 (mapItems rendering ts) = encodeItems ks 0 ts := by
        exact encodeItems_rendered fun t mem wraps k =>
          ih t.size (Tree.size_lt_of_mem_list mem) t wraps k rfl
      rw [Tree.mapLeaves_list, encodeAt, encodeAt, inside]
    | map es =>
      have inside (wraps : Bool) :
          encodeEntries ks wraps (mapValues rendering (collapseEntries ks k es))
            = encodeEntries ks wraps (collapseEntries ks k es) := by
        refine encodeEntries_rendered fun e mem wraps k' => ih e.2.size ?_ e.2 wraps k' rfl
        exact Tree.size_lt_of_mem_map mem (sizeEntries_collapseEntries_le ks k es)
      rw [Tree.mapLeaves_map, encodeAt, encodeAt, collapseEntries_rendered]
      simp only [isTyped_rendered, inside]
    | ref id target =>
      have text : (Tree.ref id target).mapLeaves rendering = .text (Localized.text id) := rfl
      rw [text, encodeAt, encodeAt]
      · exact encodeScalar_rendered wraps (.ref id target)
      all_goals simp
    | _ => rw [Localized.rendered_eq_self rfl (by simp)]

/-- **References are written like their texts.** -/
theorem encode_rendered (t : Tree) : encode ks (t.mapLeaves rendering) = encode ks t := by
  cases t with
  | list ts =>
    rw [Tree.mapLeaves_list, encode, encode,
      encodeItems_rendered fun t _ wraps k => encodeAt_rendered t wraps k]
  | map es =>
    rw [Tree.mapLeaves_map, encode, encode, isTyped_rendered,
      encodeEntries_rendered fun e _ wraps k => encodeAt_rendered e.2 wraps k]
  | _ => rfl

end Wire

end DefinitionTree
