/-
DefinitionTree/Proofs/Canonical/Placement.lean

Where a definition stands makes no difference to what becomes of it.

The place of a value decides one thing, whether the root type counts there, and
inside an instance this is settled by the declared types alone.  So neither the
name of the instance nor the keys and indices on the way down have any influence,
whatever full stops they hold.  For completion this has to be carried through
fillings inside fillings as well, because what fills a field is completed at the
place of the field.

Main definitions and statements:

* `Graph.Filler.IgnoresPlace`: a way to fill fields that does not look where;
* `Graph.fillWith_anywhere`: completing a value where its type counts;
* `Graph.complete_anywhere`, `Normalizer.normalize_anywhere`: whole definitions.
-/
import DefinitionTree.Proofs.Canonical.Completion
import DefinitionTree.Proofs.Canonical.Refusal

namespace DefinitionTree

/-! ### Completion -/

namespace Graph

variable {g : Graph} {filler : Filler} {type : Option TypeRef} {place place' : ElementId}

/-- Below the root, a field is filled with the same value wherever it is. -/
def Filler.IgnoresPlace (filler : Filler) : Prop :=
  ∀ owner f type place place', rootDepth < place.depth → rootDepth < place'.depth →
    filler owner f type place = filler owner f type place'

/-- The value is completed to the same wherever its type counts. -/
def FillsAlike (g : Graph) (filler : Filler) (t : Tree) : Prop :=
  ∀ type place place', g.Counts type place → g.Counts type place' →
    g.fillWith filler type place t = g.fillWith filler type place' t

theorem fillFields_anywhere (h : filler.IgnoresPlace) (deep : rootDepth ≤ place.depth)
    (deep' : rootDepth ≤ place'.depth) (owner : String) (missing : List Field) :
    g.fillFields filler type place owner missing
      = g.fillFields filler type place' owner missing := by
  induction missing with
  | nil => rfl
  | cons f rest ih =>
    have here : filler owner f (g.fieldType type (.text f.name)) (place.entry (.text f.name))
        = filler owner f (g.fieldType type (.text f.name)) (place'.entry (.text f.name)) :=
      h _ _ _ _ _ (Nat.lt_of_le_of_lt deep (ElementId.depth_lt_entry _ _))
        (Nat.lt_of_le_of_lt deep' (ElementId.depth_lt_entry _ _))
    rw [fillFields, fillFields, here, ih]

theorem fillItems_anywhere {ts : List Tree} (h : ∀ t ∈ ts, g.FillsAlike filler t) (index : Nat)
    (deep : rootDepth ≤ place.depth) (deep' : rootDepth ≤ place'.depth) :
    g.fillItems filler type place index ts = g.fillItems filler type place' index ts := by
  induction ts generalizing index with
  | nil => rfl
  | cons t ts ih =>
    obtain ⟨here, there⟩ := List.forall_mem_cons.mp h
    rw [fillItems, fillItems, here type _ _ (counts_item deep index) (counts_item deep' index),
      ih there]

theorem fillEntries_anywhere {es : Entries} (h : ∀ e ∈ es, g.FillsAlike filler e.2)
    (deep : rootDepth ≤ place.depth) (deep' : rootDepth ≤ place'.depth) :
    g.fillEntries filler type place es = g.fillEntries filler type place' es := by
  induction es with
  | nil => rfl
  | cons e es ih =>
    obtain ⟨k, t⟩ := e
    obtain ⟨here, there⟩ := List.forall_mem_cons.mp h
    rw [fillEntries, fillEntries, here _ _ _ (counts_entry deep k) (counts_entry deep' k),
      ih there]

/-- Completing a value depends on its type alone, if filling a field does. -/
theorem fillWith_anywhere (h : filler.IgnoresPlace) (t : Tree) : g.FillsAlike filler t := by
  induction t using Tree.induct with
  | leaf t scalar =>
    intro type place place' _ _
    rw [fillWith_leaf scalar, fillWith_leaf scalar]
  | list ts ih =>
    intro type place place' counts counts'
    rw [fillWith, fillWith, fillItems_anywhere ih 0 counts.deep counts'.deep]
  | map es ih =>
    intro type place place' counts counts'
    have old : g.fillEntries filler type place es = g.fillEntries filler type place' es :=
      fillEntries_anywhere ih counts.deep counts'.deep
    rw [fillWith, fillWith, additions_eq counts.stands, additions_eq counts'.stands, old]
    rcases g.additionsOf type es with - | k | ⟨owner, missing⟩
    · rfl
    · rfl
    · simp only [fillFields_anywhere h counts.deep counts'.deep]

/-- However deep fillings may nest, they do not look where they are put. -/
theorem nestedFiller_ignoresPlace (g : Graph) (depth : Nat) :
    Filler.IgnoresPlace (g.nestedFiller depth) := by
  induction depth with
  | zero =>
    intro owner f type place place' _ _
    rfl
  | succ depth ih =>
    intro owner f type place place' deep deep'
    exact fillWith_anywhere ih (g.fieldPlaceholder f).value type place place' (counts_of_lt deep)
      (counts_of_lt deep')

/-- A definition is completed to the same at all places that are deep enough. -/
theorem complete_anywhere (g : Graph) (deep : rootDepth ≤ place.depth)
    (deep' : rootDepth ≤ place'.depth) (t : Tree) : g.complete place t = g.complete place' t := by
  have fills : g.fill g.nesting (some g.rootRef) place t
      = g.fill g.nesting (some g.rootRef) place' t :=
    fillWith_anywhere (nestedFiller_ignoresPlace g g.nesting) t _ _ _ (counts_root deep)
      (counts_root deep')
  rw [complete, complete, fills]

end Graph

/-! ### Normalizing -/

namespace Normalizer

variable {place place' : ElementId}

/-- A definition is normalized to the same at all places that are deep enough. -/
theorem normalize_anywhere (n : Normalizer) (deep : rootDepth ≤ place.depth)
    (deep' : rootDepth ≤ place'.depth) (t : Tree) :
    (n.normalize place t).outcome = (n.normalize place' t).outcome := by
  obtain ⟨x, gives⟩ := n.exists_gives (some n.graph.rootRef) t
  rw [normalize, normalize, Journal.outcome_bind, Journal.outcome_bind,
    gives place (Graph.counts_root deep), gives place' (Graph.counts_root deep')]

end Normalizer

end DefinitionTree
