/-
DefinitionTree/Proofs/Schema/Kind.lean

The schemas of both kinds.

Workbooks have defaults and datasets have none.  Apart from that the two schemas
are alike: both are orderly, complete what they put in, and agree with the
default settings on which tags are dropped.

Main definitions and statements:

* `Kind.defaults`, `Kind.restored`: what stays of the fields that are put in;
* `Kind.keeps`, `Kind.restores`: that just this stays of them.
-/
import DefinitionTree.Definition.Kind
import DefinitionTree.Proofs.Schema.Workbook

namespace DefinitionTree

/-! ### Datasets -/

namespace Schema

theorem dataset_isOrderly : dataset.IsOrderly := by decide

theorem dataset_hasNoDefaults : dataset.HasNoDefaults := by decide

end Schema

/-! ### Either kind -/

namespace Kind

/-- The defaults of a kind. -/
def defaults : Kind → Defaults
  | .workbook => Schema.workbookDefaults
  | .dataset => fun _ => []

/-- What a field that is put in comes back as. -/
def restored : Kind → Field → Tree
  | .workbook => Schema.restoredDefault
  | .dataset => fun f => (Schema.dataset.fieldPlaceholder f).emptied

/-- A kind is normalized with the settings that are the default. -/
abbrev normalizer (kind : Kind) : Normalizer := ⟨kind.schema, none, {}⟩

theorem isOrderly (kind : Kind) : kind.schema.IsOrderly :=
  match kind with
  | .workbook => Schema.workbook_isOrderly
  | .dataset => Schema.dataset_isOrderly

theorem hasCompletePlaceholders (kind : Kind) : kind.schema.HasCompletePlaceholders :=
  match kind with
  | .workbook => Schema.workbook_hasCompletePlaceholders
  | .dataset => Graph.hasCompletePlaceholders_of_no_default Schema.dataset_hasNoDefaults

theorem hasFlatDefaults (kind : Kind) : kind.schema.HasFlatDefaults :=
  match kind with
  | .workbook => Schema.workbook_hasFlatDefaults
  | .dataset => Schema.dataset_hasNoDefaults.hasFlatDefaults

theorem agrees (kind : Kind) : kind.normalizer.Agrees := by
  cases kind <;> decide

/-- Of the fields that are put in the defaults stay, and nothing else. -/
theorem keeps (kind : Kind) : kind.normalizer.Keeps kind.restored kind.defaults := by
  cases kind with
  | workbook => exact Schema.workbook_keeps
  | dataset =>
    intro type es _
    refine List.filter_eq_nil_iff.mpr fun e he => ?_
    obtain ⟨f, -, rfl⟩ := List.mem_map.mp he
    have empty : (restored .dataset f).isEmpty = true := Placeholder.isEmpty_emptied _
    rw [empty]
    decide

/-- Every passage that lets in what builtin types admit brings the defaults back that
stay. -/
theorem restores (kind : Kind) {a : Admission} (p : Passage kind.normalizer a)
    {admits : Primitive → Tree → Bool} (lets : kind.normalizer.LetsIn a admits)
    (truths : ∀ b, admits .boolean (.bool b) = true) : p.Restores kind.restored := by
  cases kind with
  | workbook => exact Schema.workbook_restores p lets truths (agrees .workbook)
  | dataset => exact p.restores_of_no_default Schema.dataset_hasNoDefaults lets.names

/-- Every passage that lets in what builtin types admit is faithful. -/
theorem isFaithful (kind : Kind) {a : Admission} (p : Passage kind.normalizer a)
    {admits : Primitive → Tree → Bool} (lets : kind.normalizer.LetsIn a admits)
    (truths : ∀ b, admits .boolean (.bool b) = true) (formula : a.name "formula") :
    p.IsFaithful kind.restored where
  orderly := kind.isOrderly
  restores := kind.restores p lets truths
  ignored s hs := by
    rw [List.mem_singleton.mp hs]
    exact List.mem_of_elem_eq_true rfl
  names s hs := by
    rw [List.mem_singleton.mp hs]
    exact formula

end Kind

end DefinitionTree
