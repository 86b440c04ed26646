/-
DefinitionTree/Proofs/Definition/Deploy.lean

What is deployed.

Completing and encoding always succeed for the schemas of both kinds.  So a
value can be deployed if its definition can be written and, for a workbook, its
collections can be counted.  What is deployed then has the definition under one
key among others, all of them different.

Main statements:

* `Summary.exists_entries_iff`: when collections can be counted;
* `wireForm_map`: the wire form of a definition;
* `writtenEntries_eq`: there is always a definition to write;
* `deployInstance_eq_ok_iff`: what is deployed, and when.
-/
import DefinitionTree.Definition.Deploy
import DefinitionTree.Proofs.Canonical.Entry
import DefinitionTree.Proofs.Schema.Kind
import DefinitionTree.Proofs.Xml.Element

namespace DefinitionTree

/-! ### Summaries -/

namespace Summary

/-- The items of the collection can be looked at: it is a list, a text or a
mapping, or counts as nothing. -/
def IsIterable : Option Tree → Prop
  | some (.list _) => True
  | some (.text _) => True
  | some (.map _) => True
  | some t => t.isTruthy = false
  | none => True

theorem exists_items_iff (collection : Option Tree) :
    (∃ ts, items collection = .ok ts) ↔ IsIterable collection := by
  unfold items IsIterable
  split
  · exact iff_of_true ⟨_, rfl⟩ trivial
  · exact iff_of_true ⟨_, rfl⟩ trivial
  · exact iff_of_true ⟨_, rfl⟩ trivial
  · rename_i t _ _ _
    by_cases truthy : t.isTruthy = true
    · simp [truthy]
    · simp [truthy]
  · exact iff_of_true ⟨_, rfl⟩ trivial

/-- A summary is made if the items of its collection can be looked at. -/
theorem exists_entry_iff (s : Summary) (es : Entries) :
    (∃ e, s.entry es = .ok e) ↔ IsIterable (Entries.field? s.collection es) := by
  rw [← exists_items_iff, entry]
  rcases items (Entries.field? s.collection es) with fault | ts
  · exact iff_of_false (fun ⟨_, eq⟩ => nomatch eq) (fun ⟨_, eq⟩ => nomatch eq)
  · exact iff_of_true ⟨_, rfl⟩ ⟨_, rfl⟩

theorem key_of_entry {s : Summary} {es : Entries} {e : Key × Tree} (h : s.entry es = .ok e) :
    e.1 = .text s.field := by
  obtain ⟨ts, -, eq⟩ := bind_eq_ok_iff.mp h
  cases eq
  rfl

/-- Summaries are made one by one. -/
theorem entries_eq_ok_iff {es ss : Entries} :
    entries es = .ok ss ↔ List.Forall₂ (fun s e => s.entry es = .ok e) all ss := by
  rw [entries]
  generalize all = summaries
  induction summaries generalizing ss with
  | nil =>
    constructor
    · intro h
      cases h
      exact .nil
    · rintro ⟨⟩
      rfl
  | cons s summaries ih =>
    rw [List.mapM_cons]
    constructor
    · intro h
      obtain ⟨e, here, h⟩ := bind_eq_ok_iff.mp h
      obtain ⟨more, there, h⟩ := bind_eq_ok_iff.mp h
      cases h
      exact .cons here (ih.mp there)
    · intro h
      cases h with
      | cons here there =>
        rw [here, ih.mpr there]
        rfl

/-- All summaries of a value are made if its collections can be looked at. -/
theorem exists_entries_iff (es : Entries) :
    (∃ ss, entries es = .ok ss) ↔ ∀ s ∈ all, IsIterable (Entries.field? s.collection es) := by
  simp only [entries_eq_ok_iff]
  generalize all = summaries
  induction summaries with
  | nil => exact iff_of_true ⟨[], .nil⟩ (by simp)
  | cons s summaries ih =>
    rw [List.forall_mem_cons, ← ih, ← exists_entry_iff]
    constructor
    · rintro ⟨ss, all⟩
      cases all with
      | cons here there => exact ⟨⟨_, here⟩, _, there⟩
    · rintro ⟨⟨e, here⟩, ss, there⟩
      exact ⟨e :: ss, .cons here there⟩

/-- The summaries of every value are entries for the same fields. -/
theorem keysOf_entries {es ss : Entries} (h : entries es = .ok ss) :
    keysOf ss = fields.map Key.text := by
  have each := entries_eq_ok_iff.mp h
  rw [fields, List.map_map]
  clear h
  generalize all = summaries at each
  induction each with
  | nil => rfl
  | cons here _ ih =>
    rw [keysOf, List.map_cons, key_of_entry here]
    exact congrArg _ ih

end Summary

/-! ### The definition that is written -/

/-- The wire form of a definition has its entries, and the fields that it lacks. -/
theorem wireForm_map (settings : Settings) (kind : Kind) {place : ElementId}
    (deep : rootDepth ≤ place.depth) {v : Entries} (untyped : Wire.typeKey ∉ keysOf v) :
    wireForm settings kind.schema place (.map v)
      = .ok (.map (Wire.encodeEntries settings.discriminatedKeys true
          (kind.schema.completedEntries (some kind.schema.rootRef) v
            ++ kind.schema.putIn (kind.schema.root.missing v)))) := by
  have complete := Graph.complete_map kind.hasCompletePlaceholders deep v
  rw [Graph.completed_root kind.isOrderly kind.hasFlatDefaults untyped] at complete
  rw [wireForm, complete]
  exact congrArg Except.ok (Wire.encode_untyped (Graph.notMem_completed kind.isOrderly
    (Graph.areDeclared_missing List.mem_cons_self v) (by decide) untyped))

namespace Kind

/-- The entries of a definition as they are written, without its name. -/
def wiredRoot (kind : Kind) (value : Entries) : Entries :=
  ((Wire.encode ["formula"] (kind.schema.completed (some kind.schema.rootRef)
    (.map (Entries.without (outerFields.map Key.text) value)))).entries?).getD []

/-- The entries of a definition with the name of its instance. -/
def named (value es : Entries) : Entries :=
  match presentEntry "name" value with
  | [(k, name)] => es.set k (definitionName name)
  | _ => es

/-- The entries of the definition of an instance with this value, as they are
written. -/
def written (kind : Kind) (value : Entries) : Entries :=
  named value (kind.tagRoot (kind.wiredRoot value))

/-- There is always a definition to write. -/
theorem writtenEntries_eq (kind : Kind) (i : Instance) :
    writtenEntries {} kind i = .ok (kind.written i.value) := by
  have complete := Graph.complete_map kind.hasCompletePlaceholders (rootDepth_le_depth i)
    (Entries.without (outerFields.map Key.text) i.value)
  rw [writtenEntries, wireForm, complete]
  rfl

end Kind

/-! ### What is deployed -/

/-- The entries of an instance that are deployed as they are. -/
def outerEntries (value : Entries) : Entries :=
  presentEntry "name" value ++ presentEntry "scriptid" value ++ presentEntry "dependencies" value

theorem keysOf_presentEntry (s : String) (es : Entries) :
    (keysOf (presentEntry s es)).Sublist [.text s] := by
  unfold presentEntry
  split
  · exact List.nil_sublist _
  · exact .refl _
  · exact List.nil_sublist _

theorem keysOf_outerEntries (value : Entries) :
    (keysOf (outerEntries value)).Sublist [.text "name", .text "scriptid", .text "dependencies"] := by
  rw [outerEntries, keysOf_append, keysOf_append]
  exact ((keysOf_presentEntry "name" value).append (keysOf_presentEntry "scriptid" value)).append
    (keysOf_presentEntry "dependencies" value)

/-- The summaries of a value, if its kind has any. -/
def Kind.HasSummariesOf (kind : Kind) (value ss : Entries) : Prop :=
  if kind.hasSummaries = true then Summary.entries value = .ok ss else ss = []

theorem Kind.HasSummariesOf.keysOf {kind : Kind} {value ss : Entries}
    (h : kind.HasSummariesOf value ss) :
    (keysOf ss).Sublist (Summary.fields.map Key.text) := by
  unfold HasSummariesOf at h
  split at h
  · rw [Summary.keysOf_entries h]
  · rw [h]
    exact List.nil_sublist _

/-- The keys of what is deployed are different ones. -/
theorem distinct_deployed {kind : Kind} {value ss : Entries} (h : kind.HasSummariesOf value ss)
    (text : Tree) : (keysOf (outerEntries value ++ (definitionKey, text) :: ss)).Nodup := by
  have all : [Key.text "name", .text "scriptid", .text "dependencies", definitionKey,
    .text "pivots", .text "charts", .text "tables"].Nodup := by decide
  refine all.sublist ?_
  rw [keysOf_append, keysOf_cons]
  exact (keysOf_outerEntries value).append (h.keysOf.cons_cons definitionKey)

/-- Summaries go behind everything else. -/
theorem overlay_summaries {kind : Kind} {value ss : Entries} (h : kind.HasSummariesOf value ss)
    (text : Tree) :
    Entries.overlay (outerEntries value ++ [(definitionKey, text)]) ss
      = outerEntries value ++ (definitionKey, text) :: ss := by
  rw [Entries.overlay_eq_append, List.append_assoc]
  · rfl
  · intro k hk
    obtain ⟨s, -, eq⟩ := List.mem_map.mp (h.keysOf.subset hk)
    exact ⟨s, eq.symm⟩
  · rw [List.append_assoc]
    exact distinct_deployed h text

/-- A value is deployed if its definition can be written, and for a workbook if its
collections can be looked at. -/
theorem deployInstance_eq_ok_iff {kind : Kind} {i : Instance} {d : Entries} :
    deployInstance {} kind i = .ok d ↔ ∃ text ss, definitionOf {} kind i = .ok text ∧
      kind.HasSummariesOf i.value ss ∧
      d = outerEntries i.value ++ (definitionKey, .text text) :: ss := by
  rw [deployInstance]
  rcases definitionOf {} kind i with fault | text
  · exact iff_of_false (fun eq => nomatch eq) (fun ⟨_, _, eq, _⟩ => nomatch eq)
  show (if kind.hasSummaries = true then (Summary.entries i.value >>= fun ss =>
      Except.ok (Entries.overlay (outerEntries i.value ++ [(definitionKey, .text text)]) ss))
    else .ok (outerEntries i.value ++ [(definitionKey, .text text)])) = .ok d ↔ _
  constructor
  · intro h
    split at h
    · rename_i has
      obtain ⟨ss, made, h⟩ := bind_eq_ok_iff.mp h
      have summaries : kind.HasSummariesOf i.value ss := by rwa [Kind.HasSummariesOf, if_pos has]
      rw [overlay_summaries summaries] at h
      cases h
      exact ⟨text, ss, rfl, summaries, rfl⟩
    · rename_i none
      cases h
      exact ⟨text, [], rfl, by rw [Kind.HasSummariesOf, if_neg none], rfl⟩
  · rintro ⟨text', ss, eq, summaries, rfl⟩
    cases eq
    have overlaid := overlay_summaries summaries (.text text)
    unfold Kind.HasSummariesOf at summaries
    split at summaries
    · rename_i has
      rw [if_pos has, summaries]
      exact congrArg Except.ok overlaid
    · rename_i none
      rw [if_neg none, summaries]

theorem deploy_eq_ok_iff {kind : Kind} {name : Option String} {value d : Entries} :
    deploy {} kind name value = .ok d ↔ ∃ text ss,
      definitionOf {} kind (kind.instanceOf name value) = .ok text ∧
        kind.HasSummariesOf value ss ∧
        d = outerEntries value ++ (definitionKey, .text text) :: ss :=
  deployInstance_eq_ok_iff

/-- A value can be deployed if the two can be made. -/
theorem exists_deployInstance_iff {kind : Kind} {i : Instance} :
    (∃ d, deployInstance {} kind i = .ok d) ↔ (∃ text, definitionOf {} kind i = .ok text) ∧
      (kind.hasSummaries = true →
        ∀ s ∈ Summary.all, Summary.IsIterable (Entries.field? s.collection i.value)) := by
  simp only [deployInstance_eq_ok_iff]
  constructor
  · rintro ⟨d, text, ss, written, summaries, -⟩
    refine ⟨⟨text, written⟩, fun has => ?_⟩
    rw [Kind.HasSummariesOf, if_pos has] at summaries
    exact (Summary.exists_entries_iff i.value).mp ⟨ss, summaries⟩
  · rintro ⟨⟨text, written⟩, iterable⟩
    by_cases has : kind.hasSummaries = true
    · obtain ⟨ss, made⟩ := (Summary.exists_entries_iff i.value).mpr (iterable has)
      exact ⟨_, text, ss, written, by rwa [Kind.HasSummariesOf, if_pos has], rfl⟩
    · exact ⟨_, text, [], written, by rw [Kind.HasSummariesOf, if_neg has], rfl⟩

end DefinitionTree
