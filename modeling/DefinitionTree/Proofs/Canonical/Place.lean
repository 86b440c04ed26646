/-
DefinitionTree/Proofs/Canonical/Place.lean

Places lie deeper and deeper.

The id of an instance has at least as many segments as the depth at which the
root type counts, and every key on the way down adds at least one more,
whatever full stops it holds.  So the root type counts at the root alone, and
below it the declared types do.

Main statements:

* `rootDepth_le_depth`: instances are as deep as the root;
* `depth_lt_entry`, `depth_lt_item`: everything inside lies deeper;
* `Graph.counts_root`, `Graph.counts_entry`: which type counts where.
-/
import DefinitionTree.Canonical.Place
import DefinitionTree.Element.Instance

namespace DefinitionTree

/-! ### How many segments a name is cut into -/

namespace Text

theorem length_cut_pos (cs : List Char) : 0 < (cut cs).length :=
  List.length_pos_iff.mpr (cut_ne_nil cs)

theorem length_cut_append (cs ds : List Char) :
    (cut (cs ++ '.' :: ds)).length = (cut cs).length + (cut ds).length := by
  induction cs with
  | nil => simp [cut, Nat.add_comm]
  | cons c cs ih =>
    by_cases h : c = '.'
    · simp only [List.cons_append, cut, h, if_true, List.length_cons, ih]
      omega
    · obtain ⟨s, rest, e⟩ := List.exists_cons_of_ne_nil (cut_ne_nil cs)
      obtain ⟨s', rest', e'⟩ := List.exists_cons_of_ne_nil (cut_ne_nil (cs ++ '.' :: ds))
      rw [e, e'] at ih
      simpa [cut, h, e, e'] using ih

/-- Putting one more segment behind some others adds what it is cut into. -/
theorem length_cut_join_concat {ss : List (List Char)} (ne : ss ≠ []) (s : List Char) :
    (cut (join (ss ++ [s]))).length = (cut (join ss)).length + (cut s).length := by
  induction ss with
  | nil => exact absurd rfl ne
  | cons t rest ih =>
    cases rest with
    | nil => exact length_cut_append t s
    | cons u rest =>
      have step := ih (by simp)
      rw [List.cons_append, join_cons (by simp), join_cons (by simp), length_cut_append,
        length_cut_append, step]
      omega

/-- A name is cut into as many segments as it was put together from, at least. -/
theorem length_le_length_cut_join (ss : List (List Char)) :
    ss.length ≤ (cut (join ss)).length := by
  induction ss with
  | nil => exact Nat.zero_le _
  | cons s rest ih =>
    cases rest with
    | nil => exact length_cut_pos s
    | cons t rest =>
      have := length_cut_pos s
      rw [join_cons (by simp), length_cut_append, List.length_cons]
      omega

end Text

/-! ### Depths -/

namespace ElementId

theorem depth_eq (i : ElementId) :
    i.depth = (Text.cut (Text.join (i.segments.map String.toList))).length := by
  simp [depth, fullName, Text.segments, Text.dotted]

/-- One more segment makes a deeper id. -/
theorem depth_lt_of_segments {i j : ElementId} (front : List String) (s : String)
    (h : j.segments = i.segments ++ (front ++ [s])) (short : front.length ≤ 1) :
    i.depth < j.depth := by
  have one (ss : List String) (s : String) (ne : ss ≠ []) :
      (Text.cut (Text.join (ss.map String.toList))).length
        < (Text.cut (Text.join ((ss ++ [s]).map String.toList))).length := by
    have := Text.length_cut_pos s.toList
    rw [List.map_append, List.map_singleton, Text.length_cut_join_concat (by simpa using ne)]
    omega
  rw [depth_eq, depth_eq, h]
  match front, short with
  | [], _ => exact one _ s (segments_ne_nil i)
  | [t], _ =>
    refine Nat.lt_trans (one _ t (segments_ne_nil i)) ?_
    rw [← List.append_assoc]
    exact one _ s (by simp)

/-- A place inside lies deeper. -/
theorem depth_lt_nested (i : ElementId) (part : String) : i.depth < (i.nested [part]).depth := by
  by_cases h : i.idType = typeId ∧ i.parts = []
  · refine depth_lt_of_segments [i.idType] part ?_ (Nat.le_refl 1)
    simp [segments, nested, h]
  · refine depth_lt_of_segments [] part ?_ (Nat.zero_le 1)
    simp [segments, nested, h]

/-- A place any number of steps further down lies deeper. -/
theorem depth_lt_nested_of_ne_nil (i : ElementId) {parts : List String} (inside : parts ≠ []) :
    i.depth < (i.nested parts).depth := by
  induction parts generalizing i with
  | nil => exact absurd rfl inside
  | cons part rest ih =>
    have first := depth_lt_nested i part
    have more : i.nested (part :: rest) = (i.nested [part]).nested rest := by simp [nested]
    rw [more]
    rcases rest with - | ⟨next, rest⟩
    · simpa [nested] using first
    · exact Nat.lt_trans first (ih (i.nested [part]) (by simp))

theorem depth_lt_entry (place : ElementId) (k : Key) : place.depth < (place.entry k).depth :=
  depth_lt_nested place k.plain

theorem depth_lt_item (place : ElementId) (index : Nat) :
    place.depth < (place.item index).depth :=
  depth_lt_nested place _

end ElementId

/-- What has a name is at least as deep as the place where the root type counts. -/
theorem rootDepth_le_depth_of_named {i : ElementId} (named : i.parts ≠ []) :
    rootDepth ≤ i.depth := by
  rw [ElementId.depth_eq]
  refine Nat.le_trans ?_ (Text.length_le_length_cut_join _)
  have one : 0 < i.parts.length := List.length_pos_iff.mpr named
  simp [ElementId.segments, named, rootDepth]
  omega

/-- An instance is at least as deep as the place where the root type counts. -/
theorem rootDepth_le_depth (i : Instance) : rootDepth ≤ i.id.depth :=
  rootDepth_le_depth_of_named (by simp [Instance.id, ElementId.ofInstance])

/-! ### Types at places -/

namespace Graph

variable {g : Graph} {type : Option TypeRef} {place : ElementId}

/-- The type that was declared for a place counts there: the place is no higher
than the root, and if it is at the root's depth, the type is the root's. -/
structure Counts (g : Graph) (type : Option TypeRef) (place : ElementId) : Prop where
  deep : rootDepth ≤ place.depth
  stands : g.typeAt type place = type

/-- The root type counts for a whole definition. -/
theorem counts_root (deep : rootDepth ≤ place.depth) : g.Counts (some g.rootRef) place := by
  refine ⟨deep, ?_⟩
  rw [typeAt]
  split <;> rfl

theorem counts_of_lt (deep : rootDepth < place.depth) : g.Counts type place :=
  ⟨Nat.le_of_lt deep, if_neg (Nat.ne_of_gt deep)⟩

/-- Inside a definition the declared type counts. -/
theorem counts_entry (deep : rootDepth ≤ place.depth) (k : Key) :
    g.Counts type (place.entry k) :=
  counts_of_lt (Nat.lt_of_le_of_lt deep (ElementId.depth_lt_entry place k))

theorem counts_item (deep : rootDepth ≤ place.depth) (index : Nat) :
    g.Counts type (place.item index) :=
  counts_of_lt (Nat.lt_of_le_of_lt deep (ElementId.depth_lt_item place index))

end Graph

end DefinitionTree
