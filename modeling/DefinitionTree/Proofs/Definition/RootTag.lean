/-
DefinitionTree/Proofs/Definition/RootTag.lean

The tag of the root, and how it is read.

Tagging comes after completing and encoding.  So the mapping that gets the tag may
be a sentinel by then, and a sentinel is read as one whether it has a tag or not.
For a dataset it is the root, which never is a sentinel.  For a workbook it is the
header: a header that is no mapping is wrapped as it needs, and one that is missing
is put in as the sentinel of nothing.

Main definitions:

* `Wire.sentinelFor?`: the sentinel that an encoded value is;
* `Kind.rootSentinel?`: the sentinel that is tagged.

Main statements:

* `Wire.sentinel?_encodeAt`: encoding gives a value just the sentinel it needs;
* `Kind.rootSentinel?_eq_none_iff`: when no sentinel is tagged;
* `Kind.shape_tagRoot`: how the tagged mapping is read.
-/
import DefinitionTree.Proofs.Definition.Header
import DefinitionTree.Proofs.Wire.NormalForm

namespace DefinitionTree

/-! ### Encoded values -/

namespace Wire

variable {ks : List String} {k : Key} {t : Tree}

/-- The sentinel that a value is encoded as where it is held by a mapping. -/
def sentinelFor? : Tree → Option Sentinel
  | .list _ => some .array
  | .bool _ => some .boolean
  | .text s => if Text.isNumberLike s then some .string else none
  | .ref id _ => if Text.isNumberLike (Localized.text id) then some .string else none
  | _ => none

theorem sentinelFor?_eq_none_iff (t : Tree) :
    sentinelFor? t = none ↔ needsSentinel (Localized.render t) = false := by
  cases t <;> simp [sentinelFor?, needsSentinel, Localized.render]

/-- A scalar gets the sentinel that it needs. -/
theorem sentinel?_wrap (scalar : t.key?.isSome = true) :
    sentinel? (wrap (Localized.render t)) = sentinelFor? t := by
  have text (s : String) :
      sentinel? (wrap (.text s)) = if Text.isNumberLike s then some .string else none := by
    rw [wrap]
    split <;> rfl
  cases t with
  | list => cases scalar
  | map => cases scalar
  | text s => exact text s
  | ref id _ => exact text (Localized.text id)
  | _ => rfl

/-- Every value gets the sentinel that it needs, unless it is a mapping that says its own
type. -/
theorem sentinel?_encodeAt
    (untyped : ∀ es, t = .map es → typeKey ∉ keysOf (collapseEntries ks k es)) :
    sentinel? (encodeAt ks true k t) = sentinelFor? t := by
  cases t with
  | list ts =>
    rw [encodeAt_list]
    rfl
  | map es =>
    have untyped_ := untyped es rfl
    rw [encodeAt_untyped untyped_]
    exact sentinelOf?_eq_none (by rwa [keysOf_encodeEntries])
  | _ =>
    rw [encodeAt_scalar rfl]
    exact sentinel?_wrap rfl

/-- Completing does not change what a value needs. -/
theorem sentinelFor?_completed (g : Graph) (type : Option TypeRef) (t : Tree) :
    sentinelFor? (g.completed type t) = sentinelFor? t := by
  cases t with
  | list ts =>
    rw [Graph.completed]
    rfl
  | map es =>
    rw [Graph.completed]
    split
    · rfl
    · split <;> rfl
    · rfl
  | _ => rw [Graph.completed_leaf rfl]

end Wire

namespace Kind

variable {ks : List String} {v : Entries}

/-! ### The tag -/

/-- The tag decides the shape of a mapping that is no sentinel. -/
theorem shape_tagged (start : String) (kind : Kind) (es : Entries) :
    Wire.shape start (.map (kind.tagged es))
      = (Wire.sentinelOf? es).elim .taggedUnion .sentinel := by
  have mark : Wire.sentinelOf? (kind.tagged es) = Wire.sentinelOf? es := by
    rw [Wire.sentinelOf?, tagged, Wire.typeKey, Entries.get?_cons_of_ne (by decide), Wire.tagKey,
      Entries.get?_without (by decide)]
    rfl
  have tag : Wire.hasTag (.map (kind.tagged es)) = true := Entries.has_iff.mpr List.mem_cons_self
  simp only [Wire.shape, Wire.sentinel?, mark, tag]
  cases Wire.sentinelOf? es <;> rfl

/-- The mapping of a root that has the tag: the root itself or its header. -/
def taggedNode? (kind : Kind) (es : Entries) : Option Tree :=
  match kind with
  | .dataset => some (.map es)
  | .workbook => Entries.get? headerKey es

/-- The mapping that the tag is put into. -/
def untaggedNode (kind : Kind) (es : Entries) : Entries :=
  match kind with
  | .dataset => es
  | .workbook => header es

theorem taggedNode?_tagRoot (kind : Kind) (es : Entries) :
    kind.taggedNode? (kind.tagRoot es) = some (.map (kind.tagged (kind.untaggedNode es))) := by
  cases kind with
  | dataset => rfl
  | workbook => exact Entries.get?_set_self ..

/-! ### What is tagged -/

/-- The sentinel that the tag of a definition is put into, unless it is put into none. -/
def rootSentinel? (kind : Kind) (v : Entries) : Option Wire.Sentinel :=
  match kind with
  | .dataset => none
  | .workbook =>
    match Entries.get? headerKey v with
    | none => some .null
    | some t => Wire.sentinelFor? t

/-- Every dataset has a root that can be tagged; a workbook needs a header, which
must not be of a kind that is wrapped. -/
theorem rootSentinel?_eq_none_iff (kind : Kind) (v : Entries) :
    kind.rootSentinel? v = none ↔ kind = .dataset ∨
      ∃ t, Entries.get? headerKey v = some t ∧
        Wire.needsSentinel (Localized.render t) = false := by
  cases kind with
  | dataset => simp [rootSentinel?]
  | workbook => cases found : Entries.get? headerKey v <;>
      simp [rootSentinel?, found, Wire.sentinelFor?_eq_none_iff]

/-- A header is no sentinel if what stands there is none. -/
theorem sentinelOf?_header (es : Entries) :
    Wire.sentinelOf? (header es) = (Entries.get? headerKey es).bind Wire.sentinel? := by
  rw [header]
  rcases Entries.get? headerKey es with - | t
  · rfl
  · cases t <;> rfl

/-- The field of a workbook's header. -/
def headerField : Field := Schema.plain "Workbook" headerRef

/-- A header that is missing is put in as the sentinel of nothing. -/
theorem fieldPlaceholder_header :
    (Schema.workbook.fieldPlaceholder headerField).value = Wire.nullSentinel := by
  have bare : (Schema.workbook.placeholder headerRef).IsBare :=
    Schema.fieldPlaceholder_noSorting (f := headerField) rfl (by decide)
  have absent : Schema.workbook.fieldPlaceholder headerField = .absent :=
    Graph.placeholderIn_absent bare
  rw [absent]
  rfl

/-- The header that a workbook is written with. -/
theorem get?_header (distinct : (keysOf v).Nodup) :
    Entries.get? headerKey (Wire.encodeEntries ks true
        (Schema.workbook.completedEntries (some Schema.workbook.rootRef) v
          ++ Schema.workbook.putIn (Schema.workbook.root.missing v)))
      = match Entries.get? headerKey v with
        | none => some Wire.nullSentinel
        | some .null => none
        | some t => some (Wire.encodeAt ks true headerKey
            (Schema.workbook.completed (some headerRef) t)) := by
  have plain : (true && !Wire.isRawKey headerKey) = true := by decide
  rw [headerKey, Wire.get?_encodeEntries, ← headerKey, plain]
  split
  · rename_i none
    have lacks : Entries.has headerKey v = false := by
      rw [Entries.has, none]
      rfl
    -- where it is missing its placeholder is absent, which is written as null
    have missing : headerField ∈ Schema.workbook.root.missing v :=
      List.mem_filter.mpr ⟨List.mem_append_right _ List.mem_cons_self, by
        rw [show Key.text headerField.name = headerKey from rfl, lacks]
        rfl⟩
    have put := Graph.get?_putIn (some Schema.workbook.rootRef) Schema.workbook_isOrderly
      List.mem_cons_self missing
    rw [fieldPlaceholder_header] at put
    rw [show headerKey = .text headerField.name from rfl, put]
    exact congrArg some (Wire.encodeAt_mark .null)
  · rename_i null
    have gone := Graph.notMem_of_null (some Schema.workbook.rootRef) Schema.workbook_isOrderly
      List.mem_cons_self distinct null
    rw [headerKey, Entries.get?_eq_none gone]
    rfl
  · rename_i t some_ found
    rw [headerKey, Entries.get?_append (Graph.get?_completedEntries _ _ found some_)]
    rfl

/-- A header that is a mapping does not say its own type once it is completed. -/
theorem untyped_header {t : Tree} (plain : ∀ inner, t = .map inner →
      Wire.tagKey ∉ keysOf inner ∧ Wire.typeKey ∉ keysOf inner) (es : Entries)
    (completed : Schema.workbook.completed (some headerRef) t = .map es) :
    Wire.typeKey ∉ keysOf (Wire.collapseEntries ks headerKey es) := by
  cases t with
  | map inner =>
    obtain ⟨untagged, untyped⟩ := plain inner rfl
    obtain ⟨missing, eq, fresh, -⟩ := Graph.exists_putIn Schema.workbook_isOrderly
      Schema.workbook_hasFlatDefaults keepsTagAt_header untyped
    have declared : Schema.workbook.AreDeclared missing :=
      Graph.areDeclared_of_putsBack fun f hf => (fresh f hf).1
    cases eq.symm.trans completed
    exact Wire.typeKey_notMem_collapseEntries
      (Graph.notMem_completed Schema.workbook_isOrderly declared (by decide) untyped)
      (Graph.notMem_completed Schema.workbook_isOrderly declared (by decide) untagged)
  | _ => cases completed

/-- The sentinel that is tagged is known from the value. -/
theorem sentinelOf?_untaggedNode (kind : Kind) (distinct : (keysOf v).Nodup)
    (untyped : Wire.typeKey ∉ keysOf v)
    (plain : ∀ inner, Entries.get? headerKey v = some (.map inner) →
      Wire.tagKey ∉ keysOf inner ∧ Wire.typeKey ∉ keysOf inner) :
    Wire.sentinelOf? (kind.untaggedNode (Wire.encodeEntries ks true
        (kind.schema.completedEntries (some kind.schema.rootRef) v
          ++ kind.schema.putIn (kind.schema.root.missing v))))
      = kind.rootSentinel? v := by
  cases kind with
  | dataset =>
    show Wire.sentinelOf? (Wire.encodeEntries _ _ _) = none
    refine Wire.sentinelOf?_eq_none ?_
    rw [Wire.keysOf_encodeEntries]
    exact Graph.notMem_completed (isOrderly .dataset)
      (Graph.areDeclared_missing List.mem_cons_self v) (by decide) untyped
  | workbook =>
    show Wire.sentinelOf? (header _) = _
    rw [sentinelOf?_header]
    refine (congrArg (·.bind Wire.sentinel?) (get?_header distinct)).trans ?_
    rw [rootSentinel?]
    rcases found : Entries.get? headerKey v with - | t
    · rfl
    have written (some_ : t ≠ .null) : Wire.sentinel? (Wire.encodeAt ks true headerKey
        (Schema.workbook.completed (some headerRef) t)) = Wire.sentinelFor? t := by
      rw [Wire.sentinel?_encodeAt (untyped_header fun inner eq => plain inner (eq ▸ found)),
        Wire.sentinelFor?_completed]
    cases t with
    | null => rfl
    | _ => exact written (by simp)

/-- **How the tag of the root is read.**  A value that says nothing of tags and types
is always written, and the root or header that gets the tag of its kind is a mapping.
It is read as a union unless it is a sentinel, and which sentinel it is depends on
nothing but the header of a workbook. -/
theorem shape_tagRoot (start : String) (settings : Settings) (kind : Kind) {place : ElementId}
    (deep : rootDepth ≤ place.depth) (distinct : (keysOf v).Nodup)
    (untyped : Wire.typeKey ∉ keysOf v)
    (plain : ∀ inner, Entries.get? headerKey v = some (.map inner) →
      Wire.tagKey ∉ keysOf inner ∧ Wire.typeKey ∉ keysOf inner) :
    ∃ es node, wireForm settings kind.schema place (.map v) = .ok (.map es) ∧
      kind.taggedNode? (kind.tagRoot es) = some (.map node) ∧
      Entries.get? Wire.tagKey node = some (.text kind.rootTag) ∧
      Wire.shape start (.map node) = (kind.rootSentinel? v).elim .taggedUnion .sentinel := by
  refine ⟨_, _, wireForm_map settings kind deep untyped, taggedNode?_tagRoot kind _,
    Entries.get?_cons_self .., ?_⟩
  rw [shape_tagged, sentinelOf?_untaggedNode kind distinct untyped plain]

/-- A header that is a mapping is read as the union that it is. -/
theorem shape_tagRoot_header :
    ∃ es node, wireForm {} Schema.workbook (.ofInstance "netsuite" "workbook" "w") (.map [
        (.text "note", .text "x"), (headerKey, .map [(.text "label", .text "y")])])
        = .ok (.map es) ∧
      Kind.workbook.taggedNode? (Kind.workbook.tagRoot es) = some (.map node) ∧
      Entries.get? Wire.tagKey node = some (.text "workbook") ∧
      Wire.shape "custcollection" (.map node) = .taggedUnion :=
  shape_tagRoot "custcollection" {} .workbook (by decide) (by decide) (by decide)
    fun _ eq => by cases eq; decide

/-- A missing header is put in as the sentinel of nothing, and is read as that. -/
theorem shape_tagRoot_missing :
    ∃ es node, wireForm {} Schema.workbook (.ofInstance "netsuite" "workbook" "w") (.map [
        (.text "note", .text "x")]) = .ok (.map es) ∧
      Kind.workbook.taggedNode? (Kind.workbook.tagRoot es) = some (.map node) ∧
      Wire.shape "custcollection" (.map node) = .sentinel .null := by
  have null := @sentinelOf?_untaggedNode ["formula"] [(.text "note", .text "x")] .workbook
    (by decide) (by decide) fun _ eq => nomatch eq
  refine ⟨_, _, wireForm_map {} .workbook (by decide) (by decide),
    taggedNode?_tagRoot .workbook _, ?_⟩
  rw [shape_tagged]
  exact congrArg (Option.elim · Wire.Shape.taggedUnion Wire.Shape.sentinel) null

end Kind

end DefinitionTree
