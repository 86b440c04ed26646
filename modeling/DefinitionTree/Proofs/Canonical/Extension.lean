/-
DefinitionTree/Proofs/Canonical/Extension.lean

Completion only adds.

Wherever a path leads in a value, it leads to the completed form of what stands
there in the completed value.  So scalars stay, lists keep their length, and
mappings keep their entries in front of those that are added; and what is added
can be read off the declared type at the end of the path.

A value must be definite for this.  An absent value is dropped, and in a list
that moves the ones behind it.  And a mapping that is nothing but a tag gives way
to the mark of its variant, where there is one.

Main definitions and statements:

* `Graph.Adds`: what is added to a mapping;
* `Graph.at?_completed`: paths in a completed value;
* `Graph.complete_extends`: completing a definition.
-/
import DefinitionTree.Proofs.Canonical.Placeholder
import DefinitionTree.Proofs.Schema.Workbook
import DefinitionTree.Proofs.Tree.Path

namespace DefinitionTree

/-! ### Definite values -/

/-- All keys are distinct texts, no value is absent, and no mapping is nothing but
a tag. -/
structure Tree.IsDefinite (t : Tree) : Prop where
  texts : t.HasTextKeys
  present : ¬Tree.null.IsIn t
  tagged : ∀ tag, ¬(Tree.map [(Wire.tagKey, tag)]).IsIn t

namespace Tree.IsDefinite

variable {t u : Tree} {es : Entries}

theorem of_isIn (h : t.IsDefinite) (inside : u.IsIn t) : u.IsDefinite where
  texts es there := h.texts es (there.trans inside)
  present null := h.present (null.trans inside)
  tagged tag there := h.tagged tag (there.trans inside)

theorem ne_null (h : t.IsDefinite) : t ≠ .null := by
  rintro rfl
  exact h.present (.self _)

theorem item_ne_null {ts : List Tree} (h : (Tree.list ts).IsDefinite) : ∀ t ∈ ts, t ≠ .null :=
  fun t mem => (h.of_isIn (.item mem (.self t))).ne_null

theorem value_ne_null (h : (Tree.map es).IsDefinite) : ∀ e ∈ es, e.2 ≠ .null :=
  fun e mem => (h.of_isIn (.entry mem (.self e.2))).ne_null

theorem leaf (scalar : t.key?.isSome = true) (some_ : t ≠ .null) : t.IsDefinite where
  texts := hasTextKeys_leaf scalar
  present inside := by
    cases inside with
    | self => exact some_ rfl
    | item => cases scalar
    | entry => cases scalar
  tagged _ inside := by
    cases inside with
    | self => cases scalar
    | item => cases scalar
    | entry => cases scalar

theorem list {ts : List Tree} (inside : ∀ t ∈ ts, t.IsDefinite) : (Tree.list ts).IsDefinite where
  texts _ there := by
    cases there with
    | item mem there => exact (inside _ mem).texts _ there
  present there := by
    cases there with
    | item mem there => exact (inside _ mem).present there
  tagged _ there := by
    cases there with
    | item mem there => exact (inside _ mem).tagged _ there

theorem map (texts : Entries.HasTextKeys es) (tagged : ∀ tag, es ≠ [(Wire.tagKey, tag)])
    (inside : ∀ e ∈ es, e.2.IsDefinite) : (Tree.map es).IsDefinite where
  texts := .map texts fun e mem => (inside e mem).texts
  present there := by
    cases there with
    | entry mem there => exact (inside _ mem).present there
  tagged tag there := by
    cases there with
    | self => exact tagged tag rfl
    | entry mem there => exact (inside _ mem).tagged tag there

/-- A mapping with one entry, which is no tag. -/
theorem single {name : String} (other : Key.text name ≠ Wire.tagKey) (h : t.IsDefinite) :
    (Tree.map [(.text name, t)]).IsDefinite := by
  refine map (Entries.hasTextKeys_nil.cons (by simp) t) (fun tag eq => ?_)
    (List.forall_mem_singleton.mpr h)
  cases eq
  exact other rfl

end Tree.IsDefinite

namespace Graph

variable {g : Graph} {type : Option TypeRef} {es : Entries} {t u : Tree} {step : Tree.Step}
  {path : List Tree.Step}

/-! ### Declared types along paths -/

/-- The declared type one step down. -/
def typeBelow (g : Graph) (type : Option TypeRef) : Tree.Step → Option TypeRef
  | .item _ => itemType type
  | .entry name => g.fieldType type (.text name)

/-- The declared type at the end of a path. -/
def typeAlong (g : Graph) (type : Option TypeRef) : List Tree.Step → Option TypeRef
  | [] => type
  | step :: path => g.typeAlong (g.typeBelow type step) path

/-! ### What is added -/

/-- A field as it is added: with its default, or else the placeholder of its type. -/
def fieldEntry (g : Graph) (f : Field) : Key × Tree :=
  (.text f.name, f.annotations.default?.getD (g.placeholder f.type).value)

/-- What is added to a mapping: nothing, if it says itself what type it has or if no
object is declared; the name of the only variant of a union that keeps its tag; and
otherwise the fields that are missing. -/
inductive Adds (g : Graph) (type : Option TypeRef) (es : Entries) : Entries → Prop
  | sentinel : Entries.has Wire.typeKey es = true → Adds g type es []
  | undeclared : g.objectAt? type = none → Adds g type es []
  | variant {t : ObjectType} {name : String} {u : Tree} :
      Entries.has Wire.typeKey es = false → g.objectAt? type = some t → t.keepsTag = true →
      es = [(.text name, u)] → Adds g type es [(Wire.tagKey, .text name)]
  | fields {t : ObjectType} :
      Entries.has Wire.typeKey es = false → g.objectAt? type = some t →
      (t.keepsTag = true → es.length ≠ 1) → Adds g type es ((t.missing es).map g.fieldEntry)

theorem fieldEntry_eq :
    g.fieldEntry = fun f => (.text f.name, (g.fieldPlaceholder f).value) := by
  funext f
  unfold fieldEntry fieldPlaceholder
  cases f.annotations.default? <;> rfl

/-- A completed mapping keeps its entries, completed, in front of what is added. -/
theorem completed_map_eq (flat : g.HasFlatDefaults) (h : (Tree.map es).IsDefinite) :
    ∃ added, g.Adds type es added ∧ g.completed type (.map es)
      = .map ((es.map fun e => (e.1, g.completed (g.fieldType type e.1) e.2)) ++ added) := by
  rw [completed, completedEntries_eq_map h.value_ne_null, additionsOf]
  rcases object : g.objectAt? type with - | t
  · exact ⟨[], .undeclared object, by rw [List.append_nil]⟩
  rcases t.additions_cases es with ⟨typed, eq⟩ | ⟨untyped, keeps, k, u, rfl, eq⟩ |
    ⟨untyped, single, eq⟩
  · exact ⟨[], .sentinel typed, by simp only [eq, List.append_nil]⟩
  · -- the mark goes behind the variant, which is not called like the mark
    obtain ⟨name, rfl⟩ := (h.texts _ (.self _)).texts k List.mem_cons_self
    have other : (Key.text name).same Wire.tagKey = false := by
      rw [← Bool.not_eq_true, Wire.tagKey, Key.same_text_iff]
      intro tag
      exact h.tagged u (by rw [tag]; exact .self _)
    refine ⟨_, .variant untyped object keeps rfl, ?_⟩
    simp only [eq, other]
    rfl
  · refine ⟨_, .fields untyped object single, ?_⟩
    have lacks : g.additionsOf type es = .fields t.name (t.missing es) := by
      rw [additionsOf, object, ← eq]
    obtain ⟨t', -, back⟩ := putsBack_of_additionsOf lacks
    -- none of the fields is left out again, for none of them is null
    have some_ : ∀ f ∈ t.missing es, (g.fieldPlaceholder f).value ≠ .null :=
      fun f hf => fieldPlaceholderIn_ne_null flat (back f hf) g.typeNames
    simp only [eq, placeholders_eq_map some_, fieldEntry_eq]

/-! ### Completing and going down -/

/-- What stands one step down is completed at its own type. -/
theorem child?_completed (flat : g.HasFlatDefaults) (h : t.IsDefinite)
    (down : t.child? step = some u) :
    (g.completed type t).child? step = some (g.completed (g.typeBelow type step) u) := by
  cases step with
  | item index =>
    cases t with
    | list ts =>
      have there : ts[index]? = some u := down
      rw [completed, completedItems_eq_map h.item_ne_null]
      show (ts.map (g.completed (itemType type)))[index]? = _
      rw [List.getElem?_map, there]
      rfl
    | _ => cases down
  | entry name =>
    cases t with
    | map es =>
      -- what is added stands behind, so the first entry with the key is the old one
      obtain ⟨added, -, eq⟩ := @completed_map_eq g type es flat h
      rw [eq]
      exact Entries.get?_append (Entries.get?_map down) added
    | _ => cases down

/-- What stands at the end of a path is completed at the type that the path leads to. -/
theorem at?_completed (flat : g.HasFlatDefaults) (h : t.IsDefinite) (there : t.at? path = some u) :
    (g.completed type t).at? path = some (g.completed (g.typeAlong type path) u) := by
  induction path generalizing t type with
  | nil =>
    cases there
    rfl
  | cons step path ih =>
    obtain ⟨v, down, rest⟩ := Option.bind_eq_some_iff.mp there
    rw [Tree.at?_cons_of_child? (child?_completed flat h down)]
    exact ih (h.of_isIn (Tree.isIn_of_child? down)) rest

/-! ### The completed definition -/

/-- What a value of a type may become: a list one of the same length, a mapping one
with the same keys in front of those that are added, and a scalar only itself. -/
def Extends (g : Graph) (type : Option TypeRef) : Tree → Tree → Prop
  | .list ts, u => ∃ us, u = .list us ∧ us.length = ts.length
  | .map es, u => ∃ fs added, u = .map (fs ++ added) ∧ keysOf fs = keysOf es ∧ g.Adds type es added
  | t, u => u = t

theorem extends_completed (flat : g.HasFlatDefaults) (h : t.IsDefinite) :
    g.Extends type t (g.completed type t) := by
  cases t with
  | list ts =>
    refine ⟨_, rfl, ?_⟩
    rw [completedItems_eq_map h.item_ne_null, List.length_map]
  | map es =>
    obtain ⟨added, adds, eq⟩ := @completed_map_eq g type es flat h
    refine ⟨_, added, eq, ?_, adds⟩
    rw [keysOf, List.map_map]
    rfl
  | _ => rfl

/-- **Completing a definition only adds to it.**  The completed form exists; every
path in the definition leads in it to what extends the value that stands there; and
whatever stands in the definition is at the end of a path. -/
theorem complete_extends (distinct : g.HasDistinctFields) (flat : g.HasFlatDefaults)
    {place : ElementId} (deep : rootDepth ≤ place.depth) (h : (Tree.map es).IsDefinite) :
    ∃ c, g.complete place (.map es) = .ok c ∧
      (∀ path t, (Tree.map es).at? path = some t →
        ∃ u, c.at? path = some u ∧ g.Extends (g.typeAlong (some g.rootRef) path) t u) ∧
      ∀ t : Tree, t.IsIn (.map es) → ∃ path, (Tree.map es).at? path = some t := by
  refine ⟨_, complete_map (hasCompletePlaceholders_of_flat distinct flat) deep es, ?_, ?_⟩
  · intro path t there
    exact ⟨_, at?_completed flat h there,
      extends_completed flat (h.of_isIn (Tree.isIn_of_at? there))⟩
  · intro t inside
    exact Tree.exists_at?_of_isIn inside h.texts

/-- A workbook with a data view of one column. -/
def oneColumn : Entries :=
  [(.text "dataViews", .list [.map [(.text "dataView", .map [(.text "columns", .list [
    .map [(.text "fieldStateName", .text "display")]])])]])]

theorem isDefinite_oneColumn : (Tree.map oneColumn).IsDefinite := by
  have item {t : Tree} (h : t.IsDefinite) : (Tree.list [t]).IsDefinite :=
    .list (List.forall_mem_singleton.mpr h)
  have field : (Tree.text "display").IsDefinite := .leaf rfl (by simp)
  exact .single (by decide) (item (.single (by decide) (.single (by decide)
    (item (.single (by decide) field)))))

/-- The column of `oneColumn` keeps the only entry it has, and gets what a column lacks.
-/
theorem complete_oneColumn :
    ∃ c fs added, Schema.workbook.complete (.ofInstance "netsuite" "workbook" "x1")
        (.map oneColumn) = .ok c ∧
      c.at? [.entry "dataViews", .item 0, .entry "dataView", .entry "columns", .item 0]
        = some (.map (fs ++ added)) ∧
      keysOf fs = [.text "fieldStateName"] ∧
      Schema.workbook.Adds (some (Schema.wb "dataViewColumn"))
        [(.text "fieldStateName", .text "display")] added := by
  have deep : rootDepth ≤ (ElementId.ofInstance "netsuite" "workbook" "x1").depth := by decide
  obtain ⟨c, done, extends_, -⟩ := complete_extends Schema.workbook_isOrderly.distinct
    Schema.workbook_hasFlatDefaults deep isDefinite_oneColumn
  obtain ⟨u, there, fs, added, rfl, keys, adds⟩ := extends_
    [.entry "dataViews", .item 0, .entry "dataView", .entry "columns", .item 0] _ rfl
  exact ⟨c, fs, added, done, there, keys, adds⟩

end Graph

end DefinitionTree
