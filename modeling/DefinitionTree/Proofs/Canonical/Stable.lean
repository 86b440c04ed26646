/-
DefinitionTree/Proofs/Canonical/Stable.lean

Workbooks are stable after one cycle.

Denormalizing a well-typed workbook and normalizing it again puts in the defaults
of its sortings, and nothing else changes.  So a second cycle changes nothing.

Main statement:

* `Normalizer.cycle_workbook`: what the first cycle gives, and the second.
-/
import DefinitionTree.Proofs.Canonical.Cycle
import DefinitionTree.Proofs.Schema.Workbook

namespace DefinitionTree.Normalizer

/-- Workbooks are normalized with the settings that are the default. -/
abbrev ofWorkbook : Normalizer := ⟨Schema.workbook, none, {}⟩

theorem ofWorkbook_agrees : ofWorkbook.Agrees := by decide

theorem ofWorkbook_letsIn : ofWorkbook.LetsIn .direct Primitive.admits := by
  refine ⟨fun p t admitted => ?_, fun t admitted => ?_, fun _ _ _ _ => trivial⟩
  · cases p <;> cases t <;> first | exact trivial | rfl | cases admitted
  · cases t <;> first | exact trivial | rfl | cases admitted

theorem ofWorkbook_isFaithful :
    (Passage.direct ofWorkbook rfl).IsFaithful Schema.restoredDefault :=
  ⟨Schema.workbook_isOrderly,
    Schema.workbook_restores _ ofWorkbook_letsIn (fun _ => rfl) ofWorkbook_agrees,
    by decide, fun _ _ => trivial⟩

theorem admits_null (p : Primitive) : p.admits .null = false := by cases p <;> rfl

/-- The cycle of a well-typed workbook puts its defaults in. -/
theorem cycle_wellTyped (i : Instance) {t : Tree}
    (typed : Schema.workbook.WellTyped Primitive.admits (some Schema.workbook.rootRef) t) :
    ofWorkbook.cycle i.id t = .ok (some (Schema.workbook.withDefaults Schema.workbookDefaults
      (some Schema.workbook.rootRef) t)) := by
  have canonical : ofWorkbook.Canonical .direct none (some Schema.workbook.rootRef) t :=
    canonical_of_wellTyped Schema.workbook_isOrderly ofWorkbook_agrees ofWorkbook_letsIn typed
      (.inl rfl) fun _ held => nomatch held
  have settles : ofWorkbook.settle Schema.restoredDefault none (some Schema.workbook.rootRef) t
      = .ok (Schema.workbook.withDefaults Schema.workbookDefaults
          (some Schema.workbook.rootRef) t) :=
    settle_wellTyped Schema.workbook_isOrderly ofWorkbook_agrees Schema.workbook_keeps
      admits_null typed (.inl rfl)
  have some_ : (Schema.workbook.withDefaults Schema.workbookDefaults
      (some Schema.workbook.rootRef) t).isEmpty = false := Graph.isEmpty_withDefaults typed admits_null
  obtain ⟨es, rfl⟩ := Graph.isMap_of_wellTyped typed
  have cycle := cycle_eq_settle rfl ofWorkbook_isFaithful
    Schema.workbook_hasCompletePlaceholders (rootDepth_le_depth i) canonical
  rw [cycle, settles]
  simp [some_]

/-- A cycle puts the defaults of a well-typed workbook in, and changes nothing
else; the next cycle changes nothing at all. -/
theorem cycle_workbook (i : Instance) {t : Tree}
    (typed : Schema.workbook.WellTyped Primitive.admits (some Schema.workbook.rootRef) t) :
    ∃ u, u = Schema.workbook.withDefaults Schema.workbookDefaults (some Schema.workbook.rootRef) t ∧
      ofWorkbook.cycle i.id t = .ok (some u) ∧ ofWorkbook.cycle i.id u = .ok (some u) := by
  have proper : Schema.workbook.AreProper Primitive.admits Schema.workbookDefaults :=
    Schema.workbookDefaults_areProper fun _ => rfl
  refine ⟨_, rfl, cycle_wellTyped i typed, ?_⟩
  rw [cycle_wellTyped i (Graph.wellTyped_withDefaults proper typed),
    Graph.withDefaults_withDefaults proper]

/-- A workbook with a data view whose first column has no sorting, while that of
the second one says only whether case matters. -/
def sampleWorkbook : Tree := .map [
  (.text "dataViews", .list [.map [(.text "dataView", .map [
    (.text "columns", .list [
      .map [(.text "width", .int 10)],
      .map [(.text "sorting", .map [(.text "caseSensitive", .bool true)])]])])]])]

theorem cycle_sampleWorkbook :
    Schema.workbook.WellTyped Primitive.admits (some Schema.workbook.rootRef) sampleWorkbook ∧
    ∃ u, u = Schema.workbook.withDefaults Schema.workbookDefaults (some Schema.workbook.rootRef)
        sampleWorkbook ∧
      ofWorkbook.cycle (Instance.id { name := "w", typeName := "workbook" }) sampleWorkbook
        = .ok (some u) ∧
      ofWorkbook.cycle (Instance.id { name := "w", typeName := "workbook" }) u = .ok (some u) := by
  have typed : Schema.workbook.WellTyped Primitive.admits (some Schema.workbook.rootRef)
      sampleWorkbook := by decide
  exact ⟨typed, cycle_workbook _ typed⟩

end DefinitionTree.Normalizer
