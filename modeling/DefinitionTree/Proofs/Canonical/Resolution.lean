/-
DefinitionTree/Proofs/Canonical/Resolution.lean

References make no difference to what is written.

A text that names a localized string becomes a reference where the string is
known.  Until the definition is written again, the reference is treated in every
respect like the text: it is not empty, it lacks nothing, and it gets the same
sentinel.  So the wire form of a definition is the same whether its references
were resolved or not, as long as the texts that resolve come back from their
references.

Main statements:

* `Graph.complete_rendered`: completion does not tell references from texts;
* `wireForm_rendered`: nor does what is written;
* `Normalizer.rewritten_consulting`: the wire form does not depend on the lookup.
-/
import DefinitionTree.Definition.Deploy
import DefinitionTree.Proofs.Canonical.Completion
import DefinitionTree.Proofs.Canonical.Lookup
import DefinitionTree.Proofs.Element.Localized
import DefinitionTree.Proofs.Wire.Rendering

namespace DefinitionTree

open DefinitionTree.Tree (mapLeaves mapItems mapValues)
open Localized (rendering)

/-! ### Completion -/

namespace Graph

variable {g : Graph} {filler : Filler} {type : Option TypeRef} {place : ElementId} {f : LeafMap}

@[simp] theorem keysOf_mapValues (es : Entries) : keysOf (mapValues f es) = keysOf es := by
  induction es with
  | nil => rfl
  | cons e es ih =>
    obtain ⟨k, t⟩ := e
    rw [mapValues, keysOf_cons, keysOf_cons, ih]

theorem additions_mapValues (es : Entries) :
    g.additions type place (mapValues f es) = g.additions type place es := by
  unfold additions
  split
  · rfl
  · rename_i t object
    exact t.additions_eq_of_perm (by rw [keysOf_mapValues])

theorem kept_same {k : Key} {t u : Tree} {es fs : Entries} (value : t.mapLeaves f = u.mapLeaves f)
    (others : mapValues f es = mapValues f fs) :
    mapValues f (kept k t es) = mapValues f (kept k u fs) := by
  have alike := Tree.eq_null_iff_of_mapLeaves_eq value
  by_cases null : t = .null
  · rw [null, alike.mp null]
    exact others
  · rw [kept_eq_cons null, kept_eq_cons (mt alike.mpr null), mapValues, mapValues, value, others]

theorem fillItems_rendered {ts : List Tree}
    (each : ∀ t ∈ ts, ∀ type place, SameUnder (mapLeaves rendering)
      (g.fillWith filler type place (t.mapLeaves rendering)) (g.fillWith filler type place t))
    (index : Nat) :
    SameUnder (mapItems rendering) (g.fillItems filler type place index (mapItems rendering ts))
      (g.fillItems filler type place index ts) := by
  induction ts generalizing index with
  | nil => exact .of_ok rfl
  | cons t ts ih =>
    obtain ⟨here, there⟩ := List.forall_mem_cons.mp each
    rw [mapItems, fillItems, fillItems]
    refine (here type (place.item index)).bind fun u u' same => ?_
    refine (ih there (index + 1)).bind fun us us' others => .of_ok ?_
    have alike := Tree.eq_null_iff_of_mapLeaves_eq same
    have cons : mapItems rendering (u :: us) = mapItems rendering (u' :: us') := by
      rw [mapItems, mapItems, same, others]
    split
    · rw [alike.mp rfl]
      exact others
    · rename_i some_
      have some' : u' ≠ .null := fun eq => some_ (alike.mpr eq)
      split
      · exact absurd rfl some'
      · exact cons

theorem fillEntries_rendered {es : Entries}
    (each : ∀ e ∈ es, ∀ type place, SameUnder (mapLeaves rendering)
      (g.fillWith filler type place (e.2.mapLeaves rendering)) (g.fillWith filler type place e.2))
    (type : Option TypeRef) (place : ElementId) :
    SameUnder (mapValues rendering) (g.fillEntries filler type place (mapValues rendering es))
      (g.fillEntries filler type place es) := by
  induction es with
  | nil => exact .of_ok rfl
  | cons e es ih =>
    obtain ⟨k, t⟩ := e
    obtain ⟨here, there⟩ := List.forall_mem_cons.mp each
    rw [mapValues, fillEntries, fillEntries]
    refine (here (g.fieldType type k) (place.entry k)).bind fun u u' same => ?_
    exact (ih there).bind fun us us' others => .of_ok (kept_same same others)

/-- Completing a tree in which references were replaced by their texts gives the
same, up to such references. -/
theorem fillWith_rendered (t : Tree) (type : Option TypeRef) (place : ElementId) :
    SameUnder (mapLeaves rendering) (g.fillWith filler type place (t.mapLeaves rendering))
      (g.fillWith filler type place t) := by
  induction t using Tree.induct generalizing type place with
  | leaf t scalar =>
    have twice : (t.mapLeaves rendering).mapLeaves rendering = t.mapLeaves rendering := by
      cases t with
      | list => cases scalar
      | map => cases scalar
      | _ => rfl
    rw [fillWith_leaf (Tree.isLeaf_mapLeaves scalar), fillWith_leaf scalar]
    exact .of_ok twice
  | list ts ih =>
    rw [Tree.mapLeaves_list, fillWith, fillWith]
    exact (fillItems_rendered ih 0).map fun us us' same => congrArg Tree.list same
  | map es ih =>
    have inside := fillEntries_rendered ih type place
    rw [Tree.mapLeaves_map, fillWith, fillWith, additions_mapValues]
    split
    · exact inside.map fun fs fs' same => congrArg Tree.map same
    · split
      · exact .refl _ _
      · refine inside.bind fun fs fs' same => .of_ok ?_
        rw [Tree.mapLeaves_map, Tree.mapLeaves_map, Tree.mapValues_append, Tree.mapValues_append, same]
    · refine inside.bind fun fs fs' same => ?_
      refine (SameUnder.refl (mapValues rendering) _).bind fun gs gs' others => .of_ok ?_
      rw [Tree.mapLeaves_map, Tree.mapLeaves_map, Tree.mapValues_append, Tree.mapValues_append, same,
        others]

theorem complete_rendered (place : ElementId) (t : Tree) : SameUnder (mapLeaves rendering)
    (g.complete place (t.mapLeaves rendering)) (g.complete place t) := by
  refine (fillWith_rendered t (some g.rootRef) place).bind fun u u' same => ?_
  have alike := Tree.eq_null_iff_of_mapLeaves_eq same
  split
  · rw [alike.mp rfl]
    exact .of_ok rfl
  · rename_i some_
    have some' : u' ≠ .null := fun eq => some_ (alike.mpr eq)
    split
    · exact absurd rfl some'
    · exact .of_ok same

end Graph

/-- The wire form of a definition is that of the definition in which references
were replaced by their texts. -/
theorem wireForm_rendered (settings : Settings) (g : Graph) (place : ElementId) (t : Tree) :
    wireForm settings g place (t.mapLeaves rendering) = wireForm settings g place t := by
  rw [wireForm, wireForm]
  rcases (g.complete_rendered place t).cases with ⟨e, eq, eq'⟩ | ⟨u, u', eq, eq', same⟩
  · rw [eq, eq']
  · rw [eq, eq']
    refine congrArg Except.ok ?_
    rw [← Wire.encode_rendered u, same, Wire.encode_rendered]

/-! ### Two lookups -/

namespace Normalizer

/-- The wire form of what a definition is normalized to, if anything is left of
it. -/
def rewritten (n : Normalizer) (place : ElementId) (t : Tree) :
    Except Failure (Option (Except Failure Tree)) :=
  Option.map (wireForm n.settings n.graph place) <$> (n.normalize place t).outcome

/-- Under its text a text that was made of words is the same as its reference. -/
theorem agree_of_namedByWords {n : Normalizer} {lookup : Lookup} {t : Tree}
    (words : ∀ s, t.Holds (· = .text s) →
      Localized.Resolves n.settings.collectionStart lookup s →
      Localized.NamedByWords n.settings.collectionStart s) :
    n.Agree (some lookup) none rendering t := by
  intro s held
  -- without a lookup the text stays, and its reference is rendered as the text
  have unresolved := resolved_eq (isUnresolved_of_no_lookup (n := n.consulting none) rfl s)
  obtain ⟨r, outcome⟩ :=
    Localized.exists_resolve n.settings.collectionStart (some lookup) (.text s)
  have resolved_ := resolved_eq (n := n.consulting (some lookup)) outcome
  rw [resolved_, unresolved]
  rcases r with - | ⟨id, target⟩
  · rfl
  · exact congrArg Tree.text (Localized.text_of_resolve outcome (words s held ⟨_, outcome⟩))

/-- **References make no difference to what is written.**  If all texts of a
definition that resolve were made of words, normalizing it with a lookup and
without one fails alike, leaves nothing alike, or gives values with the same wire
form. -/
theorem rewritten_consulting (n : Normalizer) (lookup : Lookup) (place : ElementId) {t : Tree}
    (words : ∀ s, t.Holds (· = .text s) →
      Localized.Resolves n.settings.collectionStart lookup s →
      Localized.NamedByWords n.settings.collectionStart s) :
    (n.consulting (some lookup)).rewritten place t = (n.consulting none).rewritten place t := by
  rw [rewritten, rewritten]
  rcases (normalize_consulting (agree_of_namedByWords words) place).cases with
    ⟨e, eq, eq'⟩ | ⟨u, u', eq, eq', same⟩
  · rw [eq, eq']
    rfl
  · rw [eq, eq']
    refine congrArg Except.ok ?_
    rcases u with - | u <;> rcases u' with - | u'
    · rfl
    · cases same
    · cases same
    · have same : u.mapLeaves rendering = u'.mapLeaves rendering := Option.some.inj same
      refine congrArg some ?_
      rw [← wireForm_rendered, same, wireForm_rendered]
      rfl

/-- A collection with one string. -/
def greetings : Lookup where
  working := [.instance (Localized.collection "custcollectiontranslations_a"
    [(.text "strings", .map [(.text "string", .map [(.text "greeting", .map [
      (.text "scriptid", .text "greeting")])])])])]

/-- A dataset whose description is that string. -/
def greetingDataset : Tree := .map [(.text "description", .map [
  (.text "translationScriptId", .text "custcollectiontranslations_a.greeting")])]

theorem rewritten_greetingDataset :
    Localized.Resolves "custcollectiontranslations" greetings
      "custcollectiontranslations_a.greeting" ∧
    (∀ s, greetingDataset.Holds (· = .text s) →
      Localized.Resolves "custcollectiontranslations" greetings s →
      Localized.NamedByWords "custcollectiontranslations" s) ∧
    (consulting ⟨Schema.dataset, none, {}⟩ (some greetings)).rewritten
        (Instance.id { name := "d", typeName := "dataset" }) greetingDataset
      = (consulting ⟨Schema.dataset, none, {}⟩ none).rewritten
        (Instance.id { name := "d", typeName := "dataset" }) greetingDataset := by
  have words : ∀ s, greetingDataset.Holds (· = .text s) →
      Localized.Resolves "custcollectiontranslations" greetings s →
      Localized.NamedByWords "custcollectiontranslations" s := by
    intro s held _
    simp only [greetingDataset, Tree.holds_map_iff, List.mem_singleton, exists_eq_left] at held
    cases (Tree.holds_leaf_iff rfl).mp held
    exact ⟨"custcollectiontranslations_a", "greeting", by decide, by decide, by decide⟩
  exact ⟨⟨_, rfl⟩, words, rewritten_consulting ⟨Schema.dataset, none, {}⟩ greetings _ words⟩

end Normalizer

end DefinitionTree
