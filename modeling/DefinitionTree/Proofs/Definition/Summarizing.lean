/-
DefinitionTree/Proofs/Definition/Summarizing.lean

Summaries and the collections that they summarize.

The summaries of a workbook are made from its canonical value, and its definition
is made from the same value by completing and encoding it.  On the way an item of
a collection, which is a single variant under its tag, is marked with the tag and
then collapsed, so that the tag stands beside the fields.  Where a variant lacks a
script id it gets a placeholder, which is no text.

So the summary of a collection lists the script ids of just those items that
stand under the tag of its variant in the definition.

Main definitions:

* `IsVariant`: the items of a collection;
* `Summary.wireEntry`: a summary made from the wire form.

Main statements:

* `Summary.wireRecord?_encodeAt`: one item;
* `Summary.entries_wireForm`: all summaries.
-/
import DefinitionTree.Proofs.Definition.Deploy

namespace DefinitionTree

/-! ### Items -/

/-- The entries of a variant that is written as one: they say nothing of a tag or a
type, and the script id is a text that does not read as a number, if there is one. -/
structure IsVariantBody (inner : Entries) : Prop where
  distinct : (keysOf inner).Nodup
  untagged : Wire.tagKey ∉ keysOf inner
  untyped : Wire.typeKey ∉ keysOf inner
  scriptId : ∀ t, Entries.field? "scriptId" inner = some t →
    ∃ s, t = .text s ∧ Text.isNumberLike s = false

/-- An item of a collection: a variant under its tag. -/
def IsVariant (t : Tree) : Prop :=
  ∃ tag inner, t = .map [(.text tag, .map inner)] ∧ IsVariantBody inner

theorem IsVariant.ne_null {t : Tree} (h : IsVariant t) : t ≠ .null := by
  obtain ⟨tag, inner, rfl, -⟩ := h
  simp

namespace Summary

/-- The record of an item in the definition: it counts if it has the tag of the
variant and a text as its script id. -/
def wireRecord? (s : Summary) (item : Tree) : Option Tree := do
  let es ← item.entries?
  match Entries.get? Wire.tagKey es, Entries.field? "scriptId" es with
  | some (.text tag), some (.text id) =>
    if tag = s.variant then some (.map [(.text "scriptid", .text id)]) else none
  | _, _ => none

/-- The items of a collection in the definition, if it stands there as an array. -/
def wireItems? (s : Summary) (es : Entries) : Option (List Tree) := do
  let collection ← (Entries.field? s.collection es).bind Tree.entries?
  match Entries.get? Wire.itemKey collection with
  | none => some []
  | some (.list ts) => some ts
  | some _ => none

/-- The summary of these items, as an entry. -/
def wireEntry (s : Summary) (ts : List Tree) : Key × Tree :=
  (.text s.field, .map [(.text s.item, .list (ts.filterMap s.wireRecord?))])

/-- The record of a script id that is a text. -/
def recordOf : Option Tree → Option Tree
  | some (.text id) => some (.map [(.text "scriptid", .text id)])
  | _ => none

variable {s : Summary} {ks : List String} {inner es : Entries} {tag : String}

/-- What the table of summaries says of variants: they are called neither like a
key of the wire nor like a number. -/
theorem variant_facts : ∀ s ∈ all, Text.isNumberLike s.variant = false ∧
    s.variant ∉ ["_T_", "@_type", "xmlType"] := by
  decide

/-! ### One item in the canonical value -/

/-- An item counts if it stands under the tag of the variant. -/
theorem record?_variant (body : IsVariantBody inner) :
    s.record? (.map [(.text tag, .map inner)])
      = if tag = s.variant then recordOf (Entries.field? "scriptId" inner) else none := by
  have field : Entries.field? s.variant [(.text tag, .map inner)]
      = if tag = s.variant then some (.map inner) else none := by
    split
    · rename_i same
      rw [same]
      exact Entries.get?_cons_self ..
    · rename_i other
      exact Entries.get?_cons_of_ne (by simpa using other) ..
  simp only [record?, scriptId?, Tree.entries?, Option.bind_eq_bind, Option.bind_some, field]
  split
  · simp only [Option.bind_some, Tree.entries?]
    rcases found : Entries.field? "scriptId" inner with - | t
    · rfl
    · obtain ⟨id, rfl, -⟩ := body.scriptId t found
      rfl
  · rfl

/-! ### One item in the definition -/

/-- A mapping without a tag does not count. -/
theorem wireRecord?_untagged (untagged : Entries.get? Wire.tagKey es = none) :
    s.wireRecord? (.map es) = none := by
  have unfolded : s.wireRecord? (.map es)
      = match Entries.get? Wire.tagKey es, Entries.field? "scriptId" es with
        | some (.text tag), some (.text id) =>
          if tag = s.variant then some (.map [(.text "scriptid", .text id)]) else none
        | _, _ => none := rfl
  rw [unfolded, untagged]

/-- A mapping in the definition counts if it has the tag of the variant. -/
theorem wireRecord?_encodeEntries (mem : s ∈ all)
    (tagged : Entries.get? Wire.tagKey es = some (.text tag)) :
    s.wireRecord? (.map (Wire.encodeEntries ks true es))
      = if tag = s.variant then
          recordOf ((Entries.field? "scriptId" es).map (Wire.encodeAt ks true (.text "scriptId")))
        else none := by
  have mark : Entries.get? Wire.tagKey (Wire.encodeEntries ks true es)
      = some (Wire.wrap (.text tag)) := by
    rw [Wire.tagKey, Wire.get?_encodeEntries, ← Wire.tagKey, tagged]
    exact congrArg some (Wire.encodeAt_scalar rfl)
  have id : Entries.field? "scriptId" (Wire.encodeEntries ks true es)
      = (Entries.field? "scriptId" es).map (Wire.encodeAt ks true (.text "scriptId")) :=
    Wire.get?_encodeEntries true "scriptId" es
  have unfolded : s.wireRecord? (.map (Wire.encodeEntries ks true es))
      = match Entries.get? Wire.tagKey (Wire.encodeEntries ks true es),
          Entries.field? "scriptId" (Wire.encodeEntries ks true es) with
        | some (.text tag), some (.text id) =>
          if tag = s.variant then some (.map [(.text "scriptid", .text id)]) else none
        | _, _ => none := rfl
  rw [unfolded, mark, id, Wire.wrap]
  generalize (Entries.field? "scriptId" es).map _ = found
  by_cases same : tag = s.variant
  · have plain : Text.isNumberLike tag = false := same ▸ (variant_facts s mem).1
    simp only [plain, if_pos same, Bool.false_eq_true, if_false]
    rcases found with - | t
    · rfl
    · cases t <;> simp [same, recordOf]
  · rw [if_neg same]
    -- a tag that reads as a number is no text any more
    by_cases number : Text.isNumberLike tag = true
    · rw [if_pos number]
    · rw [if_neg number]
      rcases found with - | t
      · rfl
      · cases t <;> simp [same]

/-- The fields that are put in for script ids are no texts. -/
theorem scriptId_placeholder : ∀ t ∈ Schema.workbook.types, ∀ f ∈ t.fields,
    f.name = "scriptId" → (Schema.workbook.fieldPlaceholder f).value = Wire.nullSentinel := by
  have bare : ∀ t ∈ Schema.workbook.types, ∀ f ∈ t.fields, f.name = "scriptId" →
      f.annotations.default?.isNone = true ∧ f.type = .primitive .string := by
    decide
  intro t ht f hf called
  obtain ⟨none, string⟩ := bare t ht f hf called
  rw [Graph.fieldPlaceholder, Option.isNone_iff_eq_none.mp none, string]
  show (Schema.workbook.placeholderIn _ _).value = _
  rw [Graph.placeholderIn]
  rfl

/-- What may be put in for a script id is no text. -/
theorem recordOf_putIn {type : Option TypeRef} {missing : List Field}
    (fresh : ∀ f ∈ missing, ∃ object, Schema.workbook.PutsBack type object f) :
    recordOf ((Entries.get? (.text "scriptId") (Schema.workbook.putIn missing)).map
      (Wire.encodeAt ks true (.text "scriptId"))) = recordOf none := by
  rcases put : Entries.get? (.text "scriptId") (Schema.workbook.putIn missing) with - | t
  · rfl
  · obtain ⟨f, hf, same⟩ := List.mem_map.mp (Entries.mem_of_get? put)
    obtain ⟨called, rfl⟩ := Prod.mk.inj same
    obtain ⟨object, back⟩ := fresh f hf
    rw [scriptId_placeholder object (Graph.mem_types_of_objectAt? back.object) f back.mem
      (Key.text.inj called)]
    exact congrArg (fun t => recordOf (some t)) (Wire.encodeAt_mark .null)

/-- Completing a variant keeps its entries apart, and its script id. -/
theorem exists_completed_body {type : Option TypeRef}
    (keeps : Schema.workbook.keepsTagAt type = false) (body : IsVariantBody inner) :
    ∃ c, Schema.workbook.completed type (.map inner) = .map c ∧ (keysOf c).Nodup ∧
      Wire.tagKey ∉ keysOf c ∧ Wire.typeKey ∉ keysOf c ∧
      recordOf ((Entries.field? "scriptId" c).map (Wire.encodeAt ks true (.text "scriptId")))
        = recordOf (Entries.field? "scriptId" inner) := by
  obtain ⟨missing, eq, fresh, distinct⟩ := Graph.exists_putIn Schema.workbook_isOrderly
    Schema.workbook_hasFlatDefaults keeps body.untyped
  have old := Graph.keysOf_completedEntries Schema.workbook type inner
  have declared : Schema.workbook.AreDeclared missing :=
    Graph.areDeclared_of_putsBack fun f hf => (fresh f hf).1
  refine ⟨_, eq, ?_, ?_, ?_, ?_⟩
  · rw [keysOf_append, List.nodup_append, Graph.keysOf_putIn]
    refine ⟨body.distinct.sublist old, distinct, fun k front k' back same => ?_⟩
    obtain ⟨f, hf, rfl⟩ := List.mem_map.mp back
    exact (fresh f hf).2 (same ▸ old.subset front)
  · exact Graph.notMem_completed Schema.workbook_isOrderly declared (by decide) body.untagged
  · exact Graph.notMem_completed Schema.workbook_isOrderly declared (by decide) body.untyped
  · rcases found : Entries.field? "scriptId" inner with - | t
    · have lacks : Key.text "scriptId" ∉ keysOf inner := fun mem =>
        Option.isSome_iff_ne_none.mp (Entries.has_iff.mpr mem) found
      rw [Entries.field?, Entries.get?_append_of_notMem fun front => lacks (old.subset front)]
      exact recordOf_putIn fun f hf => (fresh f hf).1
    · obtain ⟨id, rfl, plain⟩ := body.scriptId t found
      rw [Entries.field?, Entries.get?_append (Graph.get?_completedEntries _ _ found (by simp)),
        Graph.completed_leaf rfl]
      have written : Wire.encodeAt ks true (.text "scriptId") (.text id) = .text id := by
        rw [Wire.encodeAt_scalar rfl]
        show Wire.wrap (.text id) = _
        rw [Wire.wrap, if_neg (by rw [plain]; decide)]
      exact congrArg (fun t => recordOf (some t)) written

section Item

variable {type : Option TypeRef} {union : ObjectType} (mem : s ∈ all)
  (declared : Schema.workbook.objectAt? type = some union) (keeps : union.keepsTag = true)
include mem declared keeps

/-- Under a tag that has a meaning of its own nothing is left that counts. -/
theorem wireRecord?_special (special : tag ∈ ["_T_", "@_type", "xmlType"]) (index : Int) :
    s.wireRecord? (Wire.encodeAt ks true (.int index)
      (Schema.workbook.completed type (.map [(.text tag, .map inner)]))) = none := by
  have open_ : Wire.isDiscriminated ks (.int index) = false := rfl
  have other (tag : String) (special : tag ∈ ["_T_", "@_type", "xmlType"]) : tag ≠ s.variant :=
    fun same => (variant_facts s mem).2 (same ▸ special)
  simp only [List.mem_cons, List.not_mem_nil, or_false] at special
  rcases special with rfl | rfl | rfl
  · -- the variant gives way to the mark, and nothing is left of it
    have done := Graph.completed_tagVariant declared keeps (.map inner)
    have collapsed : Wire.collapseEntries ks (.int index) [(Wire.tagKey, .text "_T_")]
        = [(Wire.tagKey, .text "_T_")] := rfl
    rw [show Key.text "_T_" = Wire.tagKey from rfl, done,
      Wire.encodeAt_untyped (by rw [collapsed]; decide), collapsed, wireRecord?_encodeEntries mem rfl,
      if_neg (other "_T_" (by decide))]
  · -- nothing is put in, and so there is no tag
    rw [show Key.text "@_type" = Wire.typeKey from rfl, Graph.completed_typed type _ (by simp)]
    generalize Schema.workbook.completed _ (.map inner) = t
    have collapsed : Wire.collapseEntries ks (.int index) [(Wire.typeKey, t)]
        = [(Wire.typeKey, t)] := by
      rw [Wire.collapseEntries_of_shown open_]
      rfl
    rw [Wire.encodeAt, collapsed]
    refine wireRecord?_untagged ?_
    rw [Wire.tagKey, Wire.get?_encodeEntries]
    rfl
  · -- the tag that is shown is lost to the mark
    rw [Graph.completed_variant declared keeps (by decide) (by decide) (by simp)]
    have collapsed (t : Tree) : Wire.collapseEntries ks (.int index)
        [(.text "xmlType", t), (Wire.tagKey, .text "xmlType")] = [(Wire.tagKey, .text "xmlType")] :=
      rfl
    rw [Wire.encodeAt_untyped (by rw [collapsed]; decide), collapsed,
      wireRecord?_encodeEntries mem rfl, if_neg (other "xmlType" (by decide))]

/-- Under any other tag the entries are beside the tag in the definition, and the script
id is still there. -/
theorem wireRecord?_plain (plain : tag ∉ ["_T_", "@_type", "xmlType"]) (body : IsVariantBody inner)
    (index : Int) :
    s.wireRecord? (Wire.encodeAt ks true (.int index)
        (Schema.workbook.completed type (.map [(.text tag, .map inner)])))
      = if tag = s.variant then recordOf (Entries.field? "scriptId" inner) else none := by
  have open_ : Wire.isDiscriminated ks (.int index) = false := rfl
  simp only [List.mem_cons, List.not_mem_nil, or_false, not_or] at plain
  have keepsAt : Schema.workbook.keepsTagAt type = true := by
    rw [Graph.keepsTagAt, declared]
    exact keeps
  obtain ⟨c, inside, distinct, untagged, untyped, id⟩ := @exists_completed_body ks inner
    (Schema.workbook.fieldType type (.text tag))
    (Schema.workbook_isOrderly.keepsTagAt_fieldType keepsAt _) body
  have noTag : Key.text tag ≠ Wire.tagKey := by simpa [Wire.tagKey] using plain.1
  have noType : Key.text tag ≠ Wire.typeKey := by simpa [Wire.typeKey] using plain.2.1
  have noShown : Key.text tag ≠ Wire.exposedKey := by simpa [Wire.exposedKey] using plain.2.2
  -- completing marks the variant with its tag
  rw [Graph.completed_variant declared keeps noType noTag (by simp), inside]
  -- collapsing puts the entries of the variant beside its tag
  have collapsed : Wire.collapseEntries ks (.int index)
      [(.text tag, .map c), (Wire.tagKey, .text tag)]
      = Entries.overlay [(Wire.tagKey, .text tag)] c :=
    Wire.collapseEntries_variant open_ noTag noShown
  have tagged : Entries.get? Wire.tagKey (Entries.overlay [(Wire.tagKey, .text tag)] c)
      = some (.text tag) := by
    rw [Wire.tagKey, Entries.get?_overlay_of_notMem untagged, Entries.get?_cons_self]
  have id_ : Entries.field? "scriptId" (Entries.overlay [(Wire.tagKey, .text tag)] c)
      = Entries.field? "scriptId" c := by
    rw [Entries.field?, Entries.get?_overlay distinct]
    exact Option.or_none
  have untyped_ : Wire.typeKey ∉ keysOf (Entries.overlay [(Wire.tagKey, .text tag)] c) := by
    intro there
    obtain ⟨⟨k, t⟩, held, same⟩ := List.mem_map.mp there
    cases same
    rcases Entries.mem_of_mem_overlay_text held with front | back
    · exact absurd (List.mem_singleton.mp front) (by simp [Wire.tagKey])
    · exact untyped (mem_keysOf back)
  rw [Wire.encodeAt_untyped (by rwa [collapsed]), collapsed,
    wireRecord?_encodeEntries mem tagged, id_, id]

/-- An item of a collection counts in the definition if it counts in the value, and
has the same record there. -/
theorem wireRecord?_encodeAt {t : Tree} (h : IsVariant t) (index : Int) :
    s.wireRecord? (Wire.encodeAt ks true (.int index) (Schema.workbook.completed type t))
      = s.record? t := by
  obtain ⟨tag, inner, rfl, body⟩ := h
  rw [record?_variant body]
  by_cases special : tag ∈ ["_T_", "@_type", "xmlType"]
  · have other : tag ≠ s.variant := fun same => (variant_facts s mem).2 (same ▸ special)
    rw [wireRecord?_special mem declared keeps special, if_neg other]
  · exact wireRecord?_plain mem declared keeps special body index

end Item

/-! ### Collections -/

/-- The items of a collection in the definition have the records of the items of
the value, in their order. -/
theorem filterMap_encodeItems {α : Type} {ts : List Tree} {F : Tree → Tree} {f g : Tree → Option α}
    (each : ∀ t ∈ ts, ∀ index : Int, f (Wire.encodeAt ks true (.int index) (F t)) = g t)
    (index : Nat) : (Wire.encodeItems ks index (ts.map F)).filterMap f = ts.filterMap g := by
  induction ts generalizing index with
  | nil =>
    rw [List.map_nil, Wire.encodeItems]
    rfl
  | cons t ts ih =>
    obtain ⟨here, there⟩ := List.forall_mem_cons.mp each
    rw [List.map_cons, Wire.encodeItems, List.filterMap_cons, List.filterMap_cons, here,
      ih there]

/-- What the schema says of a collection: it is a list of unions that keep their
tag, and it is put in where it is missing. -/
structure IsCollection (s : Summary) (item : TypeRef) (union : ObjectType) (f : Field) : Prop where
  declared : Schema.workbook.fieldType (some Schema.workbook.rootRef) (.text s.collection)
    = some (.list item)
  object : Schema.workbook.objectAt? (some item) = some union
  keeps : union.keepsTag = true
  mem : f ∈ Schema.workbook.root.fields
  called : f.name = s.collection
  putBack : f.annotations.isOmitted = false
  noDefault : f.annotations.default? = none
  type : f.type = .list item
  plain : Wire.isRawKey (.text s.collection) = false

theorem exists_isCollection (mem : s ∈ all) : ∃ item union f, s.IsCollection item union f := by
  simp only [all, List.mem_cons, List.not_mem_nil, or_false] at mem
  rcases mem with rfl | rfl | rfl
  · exact ⟨Schema.wb "pivotItem", _, Schema.plain "pivots" (Schema.listOf (Schema.wb "pivotItem")),
      rfl, rfl, rfl, by simp [Schema.workbook], rfl, rfl, rfl, rfl, by decide⟩
  · exact ⟨Schema.wb "chartItem", _, Schema.plain "charts" (Schema.listOf (Schema.wb "chartItem")),
      rfl, rfl, rfl, by simp [Schema.workbook], rfl, rfl, rfl, rfl, by decide⟩
  · exact ⟨Schema.wb "dataViewItem", _,
      Schema.plain "dataViews" (Schema.listOf (Schema.wb "dataViewItem")),
      rfl, rfl, rfl, by simp [Schema.workbook], rfl, rfl, rfl, rfl, by decide⟩

variable {v : Entries}

/-- A collection that is there is written as an array of its items. -/
theorem wireItems?_list {item : TypeRef} {union : ObjectType} {f : Field}
    (collection : s.IsCollection item union f) {ts : List Tree} (some_ : ∀ t ∈ ts, t ≠ .null)
    (found : Entries.field? s.collection v = some (.list ts)) (added : Entries) :
    s.wireItems? (Wire.encodeEntries ks true
        (Schema.workbook.completedEntries (some Schema.workbook.rootRef) v ++ added))
      = some (Wire.encodeItems ks 0 (ts.map (Schema.workbook.completed (some item)))) := by
  have completed : Schema.workbook.completed (some (.list item)) (.list ts)
      = .list (ts.map (Schema.workbook.completed (some item))) := by
    rw [Graph.completed, Graph.completedItems_eq_map some_]
    rfl
  have here := Graph.get?_completedEntries Schema.workbook (some Schema.workbook.rootRef) found
    (by simp)
  rw [collection.declared, completed] at here
  rw [wireItems?, Entries.field?, Wire.get?_encodeEntries, Entries.get?_append here]
  simp only [collection.plain, Option.map_some, Wire.encodeAt_list, Bool.not_false, Bool.and_true]
  rfl

/-- A collection that is not there is written as an array without items. -/
theorem wireItems?_none {item : TypeRef} {union : ObjectType} {f : Field}
    (collection : s.IsCollection item union f) (none : Entries.field? s.collection v = none) :
    s.wireItems? (Wire.encodeEntries ks true
        (Schema.workbook.completedEntries (some Schema.workbook.rootRef) v
          ++ Schema.workbook.putIn (Schema.workbook.root.missing v)))
      = some [] := by
  have lacks : Entries.has (.text f.name) v = false := by
    rw [collection.called, Entries.has]
    exact congrArg Option.isSome none
  have missing : f ∈ Schema.workbook.root.missing v :=
    List.mem_filter.mpr ⟨collection.mem, by rw [lacks, collection.putBack]; rfl⟩
  have here := Graph.get?_putIn (some Schema.workbook.rootRef) Schema.workbook_isOrderly
    List.mem_cons_self missing
  have bare : (Schema.workbook.fieldPlaceholder f).value = Wire.bareArray := by
    rw [Graph.fieldPlaceholder, collection.noDefault, collection.type]
    show (Schema.workbook.placeholderIn _ _).value = _
    rw [Graph.placeholderIn]
    rfl
  rw [collection.called, bare] at here
  rw [wireItems?, Entries.field?, Wire.get?_encodeEntries, here]
  simp only [collection.plain, Option.map_some, Bool.not_false, Bool.and_true]
  rw [show Wire.bareArray = .map [Wire.Sentinel.array.mark] from rfl, Wire.encodeAt_mark]
  rfl

/-- One summary, and the collection in the definition. -/
theorem exists_wireItems (ks : List String) (mem : s ∈ all)
    (collection : ∀ t, Entries.field? s.collection v = some t →
      ∃ ts, t = .list ts ∧ ∀ item ∈ ts, IsVariant item) :
    ∃ ts, s.wireItems? (Wire.encodeEntries ks true
        (Schema.workbook.completedEntries (some Schema.workbook.rootRef) v
          ++ Schema.workbook.putIn (Schema.workbook.root.missing v))) = some ts ∧
      s.entry v = .ok (s.wireEntry ts) := by
  obtain ⟨item, union, f, facts⟩ := exists_isCollection mem
  rcases found : Entries.field? s.collection v with - | t
  · refine ⟨[], wireItems?_none facts found, ?_⟩
    rw [entry, found]
    rfl
  · obtain ⟨ts, rfl, variants⟩ := collection t found
    refine ⟨_, wireItems?_list facts (fun t ht => (variants t ht).ne_null) found _, ?_⟩
    have records : (Wire.encodeItems ks 0 (ts.map (Schema.workbook.completed (some item)))).filterMap
        s.wireRecord? = ts.filterMap s.record? :=
      filterMap_encodeItems (fun t ht index =>
        wireRecord?_encodeAt mem facts.object facts.keeps (variants t ht) index) 0
    rw [entry, found, wireEntry, records]
    rfl

/-- **Summaries and definition agree.**  A workbook is written whatever its value
holds, and its collections stand in the definition as arrays.  Each summary lists the
records of the items in its array, one after the other. -/
theorem entries_wireForm (settings : Settings) {place : ElementId}
    (deep : rootDepth ≤ place.depth) (untyped : Wire.typeKey ∉ keysOf v)
    (collections : ∀ s ∈ all, ∀ t, Entries.field? s.collection v = some t →
      ∃ ts, t = .list ts ∧ ∀ item ∈ ts, IsVariant item) :
    ∃ es, wireForm settings Schema.workbook place (.map v) = .ok (.map es) ∧
      (∀ s ∈ all, (s.wireItems? es).isSome = true) ∧
      entries v = .ok (all.map fun s => s.wireEntry ((s.wireItems? es).getD [])) := by
  have written := wireForm_map settings .workbook deep untyped
  have each (s : Summary) (mem : s ∈ all) :=
    exists_wireItems settings.discriminatedKeys mem (collections s mem)
  refine ⟨_, written, fun s mem => ?_, entries_eq_ok_iff.mpr ?_⟩
  · obtain ⟨ts, items, -⟩ := each s mem
    exact Option.isSome_of_eq_some items
  · rw [List.forall₂_map_right_iff, List.forall₂_same]
    intro s mem
    obtain ⟨ts, items, made⟩ := each s mem
    rw [made]
    exact congrArg (fun ts => Except.ok (s.wireEntry (Option.getD ts []))) items.symm

/-- A workbook with three pivots, one under another tag and one without a script id,
and with a data view. -/
def sampleCollections : Entries := [
  (.text "pivots", .list [
    .map [(.text "pivot", .map [(.text "scriptId", .text "custview1"), (.text "format", .null)])],
    .map [(.text "xmlType", .map [(.text "scriptId", .text "custview2")])],
    .map [(.text "pivot", .map [(.text "id", .int 3)])]]),
  (.text "dataViews", .list [.map [(.text "dataView", .map [(.text "scriptId", .text "custview4")])]])]

theorem isVariantBody_sample {inner : Entries}
    (mem : inner ∈ [[(.text "scriptId", .text "custview1"), (.text "format", .null)],
      [(.text "scriptId", .text "custview2")], [(.text "id", .int 3)],
      [(.text "scriptId", .text "custview4")]]) : IsVariantBody inner := by
  have found {s : String} (plain : Text.isNumberLike s = false) (t : Tree)
      (eq : some (Tree.text s) = some t) : ∃ s, t = .text s ∧ Text.isNumberLike s = false :=
    ⟨s, (Option.some.inj eq).symm, plain⟩
  simp only [List.mem_cons, List.not_mem_nil, or_false] at mem
  rcases mem with rfl | rfl | rfl | rfl
  · exact ⟨by decide, by decide, by decide, found (by decide)⟩
  · exact ⟨by decide, by decide, by decide, found (by decide)⟩
  · exact ⟨by decide, by decide, by decide, nofun⟩
  · exact ⟨by decide, by decide, by decide, found (by decide)⟩

/-- The summaries of `sampleCollections` have one pivot, no chart and one table. -/
theorem entries_sampleCollections :
    ∃ es, wireForm {} Schema.workbook (.ofInstance "netsuite" "workbook" "x1")
        (.map sampleCollections) = .ok (.map es) ∧
      (∀ s ∈ all, (s.wireItems? es).isSome = true) ∧
      all.map (fun s => s.wireEntry ((s.wireItems? es).getD [])) = [
        (.text "pivots", .map [(.text "pivot", .list [.map [(.text "scriptid", .text "custview1")]])]),
        (.text "charts", .map [(.text "chart", .list [])]),
        (.text "tables", .map [(.text "table", .list [.map [(.text "scriptid", .text "custview4")]])])] := by
  have items : ∀ s ∈ all, ∀ t, Entries.field? s.collection sampleCollections = some t →
      ∃ ts, t = .list ts ∧ ∀ item ∈ ts, IsVariant item := by
    have variant {tag : String} {inner : Entries} (body : IsVariantBody inner) :
        IsVariant (.map [(.text tag, .map inner)]) := ⟨tag, inner, rfl, body⟩
    intro s mem t found
    simp only [all, List.mem_cons, List.not_mem_nil, or_false] at mem
    rcases mem with rfl | rfl | rfl
    · cases found
      refine ⟨_, rfl, ?_⟩
      simp only [List.forall_mem_cons]
      exact ⟨variant (isVariantBody_sample (by simp)), variant (isVariantBody_sample (by simp)),
        variant (isVariantBody_sample (by simp)), by simp⟩
    · cases found
    · cases found
      exact ⟨_, rfl, List.forall_mem_singleton.mpr (variant (isVariantBody_sample (by simp)))⟩
  have deep : rootDepth ≤ (ElementId.ofInstance "netsuite" "workbook" "x1").depth := by decide
  obtain ⟨es, written, arrays, summaries⟩ := entries_wireForm {} deep (by decide) items
  exact ⟨es, written, arrays, Except.ok.inj (summaries.symm.trans rfl)⟩

end Summary

end DefinitionTree
