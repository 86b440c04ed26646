/-
DefinitionTree/Proofs/Definition/Naming.lean

Names of instances do not influence values.

The name of an instance is the last segment of its id, and a full stop in it makes
more segments of it.  Still every place inside the instance lies deeper than the
depth at which the root type counts, and what becomes of a definition is the same
at all such places.  So two instances with the same value are fetched and deployed
alike, whatever they are called.

Main statements:

* `outcome_fetchInstance_of_value_eq`, `deployInstance_of_value_eq`: instances;
* `outcome_of_named`: any two names, and any two places that have a name.
-/
import DefinitionTree.Definition.Deploy
import DefinitionTree.Proofs.Canonical.Placement
import DefinitionTree.Proofs.Xml.Element

namespace DefinitionTree

variable {kind : Kind} {i j : Instance}

/-! ### Instances with the same value -/

/-- The canonical form of a definition is the same for any two instances. -/
theorem outcome_canonicalDefinition (settings : Settings) (lookup : Option Lookup) (kind : Kind)
    (i j : Instance) (s : String) :
    (canonicalDefinition settings lookup kind i s).outcome
      = (canonicalDefinition settings lookup kind j s).outcome := by
  rw [canonicalDefinition, canonicalDefinition, Journal.outcome_bind, Journal.outcome_bind]
  refine bind_congr_ok fun es _ => ?_
  exact Normalizer.normalize_anywhere _ (rootDepth_le_depth i) (rootDepth_le_depth j) _

/-- Two instances with the same value are fetched alike. -/
theorem outcome_fetchInstance_of_value_eq (settings : Settings) (lookup : Option Lookup)
    (kind : Kind) (same : i.value = j.value) :
    (fetchInstance settings lookup kind i).outcome
      = (fetchInstance settings lookup kind j).outcome := by
  rw [fetchInstance, fetchInstance, same]
  rcases definitionText? j.value with - | s
  · rfl
  · simp only [Journal.outcome_bind, outcome_canonicalDefinition settings lookup kind i j s]

/-- Two instances with the same value are deployed alike. -/
theorem deployInstance_of_value_eq (settings : Settings) (kind : Kind) (same : i.value = j.value) :
    deployInstance settings kind i = deployInstance settings kind j := by
  have form (t : Tree) :
      wireForm settings kind.schema i.id t = wireForm settings kind.schema j.id t := by
    rw [wireForm, wireForm,
      Graph.complete_anywhere kind.schema (rootDepth_le_depth i) (rootDepth_le_depth j)]
  have written : definitionOf settings kind i = definitionOf settings kind j := by
    rw [definitionOf, definitionOf, writtenEntries, writtenEntries, form, same]
  rw [deployInstance, deployInstance, written, same]

/-! ### Names -/

/-- Ids that have a name are at the root or deeper, and what is inside of them lies
deeper than the root. -/
theorem ElementId.eq_nil_of_depth_nested {place : ElementId} (named : place.parts ≠ [])
    {parts : List String} (root : (place.nested parts).depth = rootDepth) : parts = [] := by
  by_contra inside
  have deep := rootDepth_le_depth_of_named named
  have deeper := ElementId.depth_lt_nested_of_ne_nil place inside
  omega

/-- **Names do not influence values.**  An instance is fetched and deployed alike
under any two names, and without one.  A definition is normalized and completed
alike at any two places that have a name, because the root type is taken up at the
root alone, and counts there anyway. -/
theorem outcome_of_named :
    (∀ (settings : Settings) (lookup : Option Lookup) (kind : Kind) (value : Entries)
      (name name' : Option String),
      (fetch settings lookup kind name value).outcome
          = (fetch settings lookup kind name' value).outcome ∧
        deploy settings kind name value = deploy settings kind name' value) ∧
    ∀ place place' : ElementId, place.parts ≠ [] → place'.parts ≠ [] →
      (∀ (n : Normalizer) (t : Tree),
        (n.normalize place t).outcome = (n.normalize place' t).outcome) ∧
      (∀ (g : Graph) (t : Tree), g.complete place t = g.complete place' t) ∧
      (∀ parts : List String, (place.nested parts).depth = rootDepth → parts = []) ∧
      ∀ g : Graph, g.typeAt (some g.rootRef) place = some g.rootRef := by
  refine ⟨fun settings lookup kind value name name' => ⟨?_, ?_⟩,
    fun place place' named named' => ?_⟩
  · exact outcome_fetchInstance_of_value_eq settings lookup kind rfl
  · exact deployInstance_of_value_eq settings kind rfl
  · have deep := rootDepth_le_depth_of_named named
    have deep' := rootDepth_le_depth_of_named named'
    exact ⟨fun n t => n.normalize_anywhere deep deep' t,
      fun g t => g.complete_anywhere deep deep' t,
      fun parts root => ElementId.eq_nil_of_depth_nested named root,
      fun g => (Graph.counts_root deep).stands⟩

/-- A dataset under a plain name, at the depth of the root, and under one with a full
stop, which lies deeper. -/
theorem outcome_of_named_dotted :
    (ElementId.ofInstance "netsuite" "dataset" "sales").parts ≠ [] ∧
    (ElementId.ofInstance "netsuite" "dataset" "sales").depth = rootDepth ∧
    (ElementId.ofInstance "netsuite" "dataset" "sales.2024").parts ≠ [] ∧
    (ElementId.ofInstance "netsuite" "dataset" "sales.2024").depth ≠ rootDepth ∧
    (Normalizer.normalize ⟨Schema.dataset, none, {}⟩ (.ofInstance "netsuite" "dataset" "sales")
        (.map [(.text "id", .int 3)])).outcome
      = (Normalizer.normalize ⟨Schema.dataset, none, {}⟩
        (.ofInstance "netsuite" "dataset" "sales.2024") (.map [(.text "id", .int 3)])).outcome ∧
    Graph.complete Schema.dataset (.ofInstance "netsuite" "dataset" "sales") (.map [])
      = Graph.complete Schema.dataset
        (.ofInstance "netsuite" "dataset" "sales.2024") (.map []) := by
  have plain : (ElementId.ofInstance "netsuite" "dataset" "sales").parts ≠ [] := by decide
  have dotted : (ElementId.ofInstance "netsuite" "dataset" "sales.2024").parts ≠ [] := by decide
  obtain ⟨normalized, completed, -⟩ := outcome_of_named.2 _ _ plain dotted
  exact ⟨plain, by decide, dotted, by decide, normalized _ _, completed _ _⟩

end DefinitionTree
