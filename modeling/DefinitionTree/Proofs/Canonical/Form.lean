/-
DefinitionTree/Proofs/Canonical/Form.lean

The canonical form.

Whatever comes out of normalizing is in canonical form: nothing in it is empty,
no sentinel and no tag is left anywhere, and no number stands where a text is
declared.  The types are found as the schema declares them on the way down from
the root, along the keys that the canonical value has itself.

Two things about the raw value are needed.  An attribute holds a text, as it does
wherever a value was read from markup; and no tag is called like the key that
holds it, for then the variant would look like a tag.

Main definitions and statements:

* `Wire.IsRegular`: the mappings that this is about;
* `Graph.Stands`, `Graph.IsTidy`: what stands in a value at which type, and what
  may stand there;
* `Normalizer.isTidy_of_normalize`: the canonical form of a definition is tidy
  wherever one looks.
-/
import DefinitionTree.Proofs.Canonical.Step
import DefinitionTree.Schema.Dataset
import DefinitionTree.Wire.Shape

namespace DefinitionTree

/-! ### Raw values -/

namespace Wire

/-- The key is that of an attribute. -/
def isAttribute (k : Key) : Bool :=
  match k with
  | .text s => startsWith attributeMark s
  | _ => false

/-- Keys occur once, attributes hold texts, and the tag is not called like the
tag's key. -/
structure IsRegular (es : Entries) : Prop where
  distinct : (keysOf es).Nodup
  attributes : ∀ e ∈ es, isAttribute e.1 = true → ∃ s, e.2.key? = some (.text s)
  tag : ∀ e ∈ es, e.1 = tagKey → e.2.key? ≠ some tagKey

/-- All mappings in the value are regular. -/
def AreRegular (t : Tree) : Prop := ∀ es, (Tree.map es).IsIn t → IsRegular es

variable {es fs : Entries}

/-- Fewer entries are no less regular. -/
theorem IsRegular.sublist (h : IsRegular es) (sub : fs.Sublist es) : IsRegular fs where
  distinct := h.distinct.sublist (sub.map _)
  attributes e mem := h.attributes e (sub.subset mem)
  tag e mem := h.tag e (sub.subset mem)

theorem AreRegular.item {ts : List Tree} (h : AreRegular (.list ts)) {t : Tree} (mem : t ∈ ts) :
    AreRegular t :=
  fun es there => h es (.item mem there)

theorem AreRegular.entry (h : AreRegular (.map es)) {e : Key × Tree} (mem : e ∈ es) :
    AreRegular e.2 :=
  fun fs there => h fs (.entry mem there)

theorem AreRegular.here (h : AreRegular (.map es)) : IsRegular es := h es (.self _)

theorem AreRegular.get? (h : AreRegular (.map es)) {k : Key} {t : Tree}
    (found : Entries.get? k es = some t) : AreRegular t := by
  obtain ⟨e, mem, -, rfl⟩ := Entries.exists_mem_of_get? found
  exact h.entry mem

/-- What is left of a mapping of a regular value is a regular value. -/
theorem AreRegular.without (h : AreRegular (.map es)) (ks : List Key) :
    AreRegular (.map (Entries.without ks es)) := by
  intro fs there
  cases there with
  | self => exact h.here.sublist List.filter_sublist
  | entry mem there => exact h.entry (List.mem_of_mem_filter mem) fs there

theorem areRegular_leaf {t : Tree} (scalar : t.key?.isSome = true) : AreRegular t := by
  intro es there
  cases there with
  | self => cases scalar
  | item => cases scalar
  | entry => cases scalar

theorem areRegular_map (h : IsRegular es) (inside : ∀ e ∈ es, AreRegular e.2) :
    AreRegular (.map es) := by
  intro fs there
  cases there with
  | self => exact h
  | entry mem there => exact inside _ mem fs there

/-- A mapping with distinct keys is no sentinel if its type attribute, wherever it
stands, does not say so. -/
theorem sentinelOf?_eq_none_iff (distinct : (keysOf es).Nodup) :
    sentinelOf? es = none ↔ ∀ s, (typeKey, .text s) ∈ es → Sentinel.ofName? s = none := by
  constructor
  · intro h s mem
    rw [sentinelOf?, typeKey, Entries.get?_of_mem distinct mem] at h
    exact h
  · intro h
    rw [sentinelOf?]
    split
    · rename_i s found
      exact h s (Entries.mem_of_get? found)
    · rfl

end Wire

/-! ### Canonical values -/

namespace Graph

/-- The second value stands in the first, at the type that the schema declares
for it on the way down. -/
inductive Stands (g : Graph) : Option TypeRef → Tree → Option TypeRef → Tree → Prop
  | self (type : Option TypeRef) (t : Tree) : Stands g type t type t
  | item {type inner : Option TypeRef} {t u : Tree} {ts : List Tree} : t ∈ ts →
    Stands g (itemType type) t inner u → Stands g type (.list ts) inner u
  | entry {type inner : Option TypeRef} {u : Tree} {e : Key × Tree} {es : Entries} : e ∈ es →
    Stands g (g.fieldType type e.1) e.2 inner u → Stands g type (.map es) inner u

/-- What may stand in a canonical value: neither null nor anything empty, no
sentinel, nothing with a tag, and no number where a text is declared. -/
structure IsTidy (type : Option TypeRef) (t : Tree) : Prop where
  filled : t.isEmpty = false
  decoded : Wire.sentinel? t = none
  untagged : Wire.hasTag t = false
  textual : type.any (·.isString) = true → (∀ i, t ≠ .int i) ∧ ∀ x, t ≠ .float x

variable {g : Graph} {type : Option TypeRef}

/-- All that stands in the value is tidy. -/
def AllTidy (g : Graph) (type : Option TypeRef) (t : Tree) : Prop :=
  ∀ inner u, g.Stands type t inner u → IsTidy inner u

theorem allTidy_leaf {t : Tree} (scalar : t.key?.isSome = true) (tidy : IsTidy type t) :
    g.AllTidy type t := by
  intro inner u stands
  cases stands with
  | self => exact tidy
  | item => cases scalar
  | entry => cases scalar

theorem allTidy_list {ts : List Tree} (some_ : ts ≠ [])
    (inside : ∀ t ∈ ts, g.AllTidy (itemType type) t) : g.AllTidy type (.list ts) := by
  intro inner u stands
  cases stands with
  | self => exact ⟨by cases ts <;> simp_all [Tree.isEmpty], rfl, rfl, by simp⟩
  | item mem there => exact inside _ mem _ _ there

theorem allTidy_map {es : Entries} (some_ : es ≠ []) (mark : Wire.sentinelOf? es = none)
    (tag : Wire.tagKey ∉ keysOf es) (inside : ∀ e ∈ es, g.AllTidy (g.fieldType type e.1) e.2) :
    g.AllTidy type (.map es) := by
  intro inner u stands
  cases stands with
  | self =>
    have untagged : Wire.hasTag (.map es) = false := by
      rw [Wire.hasTag, Wire.tagKey, Entries.has_eq_false_iff]
      exact tag
    exact ⟨by cases es <;> simp_all [Tree.isEmpty], mark, untagged, by simp⟩
  | entry mem there => exact inside _ mem _ _ there

end Graph

namespace Normalizer

variable {n : Normalizer} {type : Option TypeRef}

/-! ### One step -/

/-- What stands in a list after a step is as regular as what was there. -/
theorem areRegular_item {t u : Tree} {ts : List Tree} (step : n.Opens type t (.list ts))
    (regular : Wire.AreRegular t) (mem : u ∈ ts) : Wire.AreRegular u := by
  cases step with
  | list => exact regular.item mem
  | @array es mark =>
    rcases found : Entries.get? Wire.itemKey es with - | items
    · rw [found] at mem
      cases mem
    · have inside := regular.get? found
      rw [found] at mem
      cases items with
      | null => cases mem
      | list us => exact inside.item mem
      | _ =>
        rw [List.mem_singleton.mp mem]
        exact inside

/-- What stands in a mapping after a step is as regular as what was there. -/
theorem areRegular_entry {t : Tree} {es : Entries} (step : n.Opens type t (.map es))
    (regular : Wire.AreRegular t) {e : Key × Tree} (mem : e ∈ es) : Wire.AreRegular e.2 := by
  cases step with
  | null => cases mem
  | plain => exact regular.entry mem
  | dropped => exact regular.entry (List.mem_of_mem_filter mem)
  | nested =>
    rw [List.mem_singleton.mp mem]
    exact regular.without _
  | exposed mark union found =>
    rcases Entries.mem_of_mem_overlay mem with mem | ⟨f, mem, eq⟩
    · rw [List.mem_singleton.mp mem]
      exact regular.get? found
    · exact eq ▸ regular.entry (List.mem_of_mem_filter mem)

/-- No tag is left after a step. -/
theorem tagKey_notMem_of_opens {t : Tree} {es : Entries} (step : n.Opens type t (.map es))
    (regular : Wire.AreRegular t) : Wire.tagKey ∉ keysOf es := by
  have removed (fs : Entries) (u : Tree) :
      (Wire.tagKey, u) ∉ Entries.without [Wire.tagKey] fs := by
    intro mem
    have kept := (List.mem_filter.mp mem).2
    simp at kept
  intro mem
  obtain ⟨⟨k, u⟩, mem, rfl⟩ := List.mem_map.mp mem
  cases step with
  | null => cases mem
  | plain mark untagged =>
    have tagged := Entries.has_iff.mpr (mem_keysOf mem)
    rw [Entries.has, ← Wire.tagKey, untagged] at tagged
    cases tagged
  | dropped => exact removed _ _ mem
  | @nested fs tag k mark union found key =>
    -- the tag would be called like its own key
    obtain ⟨rfl, -⟩ := Prod.mk.inj (List.mem_singleton.mp mem)
    exact regular.here.tag _ (Entries.mem_of_get? found) rfl key
  | exposed =>
    rcases Entries.mem_of_mem_overlay_text mem with mem | mem
    · have eq := (Prod.mk.inj (List.mem_singleton.mp mem)).1
      simp [Wire.exposedKey] at eq
    · exact removed _ _ mem

/-- Under the key of the type attribute stands a text that names no sentinel, or
a mapping that is none. -/
def IsForeign (t : Tree) : Prop :=
  (∃ s, t = .text s ∧ Wire.Sentinel.ofName? s = none) ∨
    ∃ es, t = .map es ∧ Wire.sentinelOf? es = none

theorem isForeign_of_opens {t u : Tree} {es : Entries} (step : n.Opens type t (.map es))
    (regular : Wire.AreRegular t) (mem : (Wire.typeKey, u) ∈ es) : IsForeign u := by
  have own {fs : Entries} (regular : Wire.IsRegular fs) (mark : Wire.sentinelOf? fs = none)
      (mem : (Wire.typeKey, u) ∈ fs) : IsForeign u := by
    obtain ⟨s, eq⟩ := regular.attributes _ mem rfl
    obtain rfl := Tree.eq_text_of_key? eq
    exact .inl ⟨s, rfl, (Wire.sentinelOf?_eq_none_iff regular.distinct).mp mark s mem⟩
  cases step with
  | null => cases mem
  | plain mark => exact own regular.here mark mem
  | dropped mark => exact own regular.here mark (List.mem_of_mem_filter mem)
  | nested mark =>
    -- the tag is called like the attribute, and its variant stands there
    obtain ⟨-, rfl⟩ := Prod.mk.inj (List.mem_singleton.mp mem)
    refine .inr ⟨_, rfl, ?_⟩
    rw [Wire.sentinelOf?_eq_none_iff (regular.without _).here.distinct]
    intro s mem
    exact (Wire.sentinelOf?_eq_none_iff regular.here.distinct).mp mark s
      (List.mem_of_mem_filter mem)
  | exposed mark =>
    rcases Entries.mem_of_mem_overlay_text mem with mem | mem
    · have eq := (Prod.mk.inj (List.mem_singleton.mp mem)).1
      simp [Wire.exposedKey] at eq
    · exact own regular.here mark (List.mem_of_mem_filter mem)

/-! ### Whole runs -/

/-- What comes of a value: something empty, or something tidy through and
through.  A text stays a text or becomes a reference, and a mapping that is no
sentinel stays a mapping. -/
structure ComesOutTidy (n : Normalizer) (type : Option TypeRef) (t u : Tree) : Prop where
  tidy : u.isEmpty = false → n.graph.AllTidy type u
  text : ∀ s, t = .text s → u = .text s ∨ ∃ id target, u = .ref id target
  map : ∀ es, t = .map es → Wire.sentinelOf? es = none → u.isMap = true

theorem comesOutTidy_leaf {t u : Tree} (yields : n.Yields type t u) : n.ComesOutTidy type t u := by
  have scalar := yields.isLeaf
  have tidy (filled : u.isEmpty = false)
      (textual : type.any (·.isString) = true → (∀ i, u ≠ .int i) ∧ ∀ x, u ≠ .float x) :
      n.graph.AllTidy type u := by
    refine Graph.allTidy_leaf scalar ⟨filled, ?_, ?_, textual⟩
    · cases u with
      | map => cases scalar
      | _ => rfl
    · cases u with
      | map => cases scalar
      | _ => rfl
  cases yields with
  | null => exact ⟨by simp [Tree.isEmpty], by simp, by simp⟩
  | ref id target => exact ⟨fun filled => tidy filled (by simp), by simp, by simp⟩
  | text s =>
    have cases_ := n.resolved_cases s
    refine ⟨fun filled => tidy filled fun _ => ?_, ?_, by simp⟩
    · rcases cases_ with eq | ⟨id, target, eq⟩ <;> rw [eq] <;> simp
    · rintro s' ⟨⟩
      exact cases_
  | scalar one visited =>
    refine ⟨fun filled => tidy filled fun textual => ?_, ?_, ?_⟩
    · rcases visitScalar_cases visited with ⟨-, s, -, rfl⟩ | ⟨other, -⟩
      · simp
      · rw [textual] at other
        cases other
    · rcases one with ⟨b, rfl⟩ | ⟨i, rfl⟩ | ⟨x, rfl⟩ <;> simp
    · rcases one with ⟨b, rfl⟩ | ⟨i, rfl⟩ | ⟨x, rfl⟩ <;> simp
  | boolean mark | string mark =>
    refine ⟨fun filled => tidy filled (by simp), by simp, ?_⟩
    rintro es ⟨⟩ none
    rw [mark] at none
    cases none

/-- What is left of a list holds what came of its items. -/
theorem comesOutTidy_list {t : Tree} {ts us : List Tree} (opens : n.Opens type t (.list ts))
    (regular : Wire.AreRegular t)
    (inside : List.Forall₂
      (fun t u => Wire.AreRegular t → n.ComesOutTidy (Graph.itemType type) t u) ts us) :
    n.ComesOutTidy type t (.list (us.filter fun u => !u.isEmpty)) := by
  refine ⟨fun filled => Graph.allTidy_list ?_ ?_, ?_, ?_⟩
  · rintro none
    rw [none] at filled
    cases filled
  · intro u mem
    obtain ⟨mem, filled⟩ := List.mem_filter.mp mem
    obtain ⟨t', mem', out⟩ := exists_of_forall₂ inside mem
    exact (out (areRegular_item opens regular mem')).tidy (by simpa using filled)
  · rintro s rfl
    cases opens
  · rintro es rfl none
    cases opens with
    | array mark =>
      rw [mark] at none
      cases none

/-- What is left of a mapping holds what came of its entries. -/
theorem comesOutTidy_map {t : Tree} {es fs : Entries} (opens : n.Opens type t (.map es))
    (regular : Wire.AreRegular t)
    (inside : List.Forall₂ (fun e f => e.1 = f.1 ∧
      (Wire.AreRegular e.2 → n.ComesOutTidy (n.graph.fieldType type e.1) e.2 f.2)) es fs) :
    n.ComesOutTidy type t (.map (fs.filter fun f => !f.2.isEmpty)) := by
  have own {f : Key × Tree} (mem : f ∈ fs.filter fun f => !f.2.isEmpty) : ∃ e ∈ es,
      e.1 = f.1 ∧ n.ComesOutTidy (n.graph.fieldType type e.1) e.2 f.2 ∧ f.2.isEmpty = false := by
    obtain ⟨mem, filled⟩ := List.mem_filter.mp mem
    obtain ⟨e, mem, key, out⟩ := exists_of_forall₂ inside mem
    exact ⟨e, mem, key, out (areRegular_entry opens regular mem), by simpa using filled⟩
  refine ⟨fun filled => Graph.allTidy_map ?_ ?_ ?_ ?_, ?_, fun _ _ _ => rfl⟩
  · rintro none
    rw [none] at filled
    cases filled
  · rw [Wire.sentinelOf?]
    split
    · rename_i s found
      -- the name of a sentinel cannot come out of what was foreign before
      obtain ⟨⟨k, u⟩, mem, rfl, out, -⟩ := own (Entries.mem_of_get? found)
      rcases isForeign_of_opens opens regular mem with ⟨s', rfl, foreign⟩ | ⟨fs, rfl, mark⟩
      · rcases out.text s' rfl with eq | ⟨id, target, eq⟩
        · cases eq
          exact foreign
        · cases eq
      · have compound := out.map fs rfl mark
        cases compound
    · rfl
  · intro mem
    obtain ⟨f, mem, eq⟩ := List.mem_map.mp mem
    obtain ⟨e, mem, key, -⟩ := own mem
    exact tagKey_notMem_of_opens opens regular (List.mem_map.mpr ⟨e, mem, key.trans eq⟩)
  · intro f mem
    obtain ⟨e, -, key, out, filled⟩ := own mem
    exact key ▸ out.tidy filled
  · rintro s rfl
    cases opens

/-- Every regular value comes out tidy. -/
theorem comesOutTidy {place : ElementId} (counts : n.graph.Counts type place) {t u : Tree}
    (regular : Wire.AreRegular t) (h : (n.walk type place t).outcome = .ok u) :
    n.ComesOutTidy type t u :=
  walk_induct (P := fun type t u => Wire.AreRegular t → n.ComesOutTidy type t u)
    (fun _ _ _ yields _ => comesOutTidy_leaf yields)
    (fun _ _ _ _ opens inside regular => comesOutTidy_list opens regular inside)
    (fun _ _ _ _ opens inside regular => comesOutTidy_map opens regular inside)
    counts h regular

/-- **The canonical form.**  Whatever normalizing a regular mapping gives, if
anything, is tidy wherever one looks in it: nothing empty, no sentinel, no tag,
and no number where a text is declared. -/
theorem isTidy_of_normalize {place : ElementId} (deep : rootDepth ≤ place.depth) {es : Entries}
    (regular : Wire.AreRegular (.map es)) {c : Tree}
    (h : (n.normalize place (.map es)).outcome = .ok (some c)) {inner : Option TypeRef} {u : Tree}
    (stands : n.graph.Stands (some n.graph.rootRef) c inner u) : Graph.IsTidy inner u := by
  rw [normalize, Journal.outcome_bind] at h
  rcases walked : (n.walk (some n.graph.rootRef) place (.map es)).outcome with fault | v
  · rw [walked] at h
    cases h
  rw [walked] at h
  have out := comesOutTidy (Graph.counts_root deep) regular walked
  rcases filled : v.isEmpty with - | -
  · have same : v = c := by simpa [filled] using h
    subst same
    exact out.tidy filled inner u stands
  · simp [filled] at h

/-- A dataset whose version was written as a number, and which has no name. -/
def numberedDataset : Entries := [(.text "name", Wire.nullSentinel), (.text "version", .int 7)]

theorem areRegular_numberedDataset : Wire.AreRegular (.map numberedDataset) := by
  refine Wire.areRegular_map ⟨by decide, by simp [numberedDataset, Wire.isAttribute,
    Wire.startsWith, Wire.attributeMark], by simp [numberedDataset, Wire.tagKey]⟩ fun e he => ?_
  rcases List.mem_pair.mp he with rfl | rfl
  · refine Wire.areRegular_map ⟨by decide, ?_, ?_⟩ fun e he => ?_
    · simp [Wire.Sentinel.mark, Tree.key?]
    · simp [Wire.Sentinel.mark, Wire.typeKey, Wire.tagKey]
    · rw [List.mem_singleton.mp he]
      exact Wire.areRegular_leaf rfl
  · exact Wire.areRegular_leaf rfl

/-- The canonical form of `numberedDataset` holds the version as a text and nothing else.
-/
theorem normalize_numberedDataset :
    (normalize ⟨Schema.dataset, none, {}⟩ (Instance.id { name := "d", typeName := "dataset" })
      (.map numberedDataset)).outcome = .ok (some (.map [(.text "version", .text "7")])) := by
  have version : Gives ⟨Schema.dataset, none, {}⟩ (some (.primitive .string)) (.int 7)
      (.ok (.text "7")) := by
    refine gives_scalar rfl (fun _ => rfl) ?_
    have written : (Tree.int 7).toText = .ok (Tree.int 7).scalarText :=
      Tree.toText_eq_ok (Numeral.isWritable_iff.mpr (by decide +kernel))
    have text : (Tree.int 7).scalarText = "7" := by
      show String.ofList (Numeral.digits 7) = "7"
      rw [Numeral.digits]
      rfl
    rw [text] at written
    exact congrArg (Tree.text <$> ·) written
  have name (type : Option TypeRef) : Gives ⟨Schema.dataset, none, {}⟩ type Wire.nullSentinel
      (.ok (.map [])) :=
    gives_null rfl
  have inside : Gives ⟨Schema.dataset, none, {}⟩ (some Schema.dataset.rootRef)
      (.map numberedDataset)
      (Tree.map <$> collect [(.text "name", .ok (.map [])), (.text "version", .ok (.text "7"))]) :=
    gives_plain rfl rfl
      (givesEntries_of_forall₂ (.cons ⟨rfl, name _⟩ (.cons ⟨rfl, version⟩ .nil)))
  have outcome := inside _ (Graph.counts_root (rootDepth_le_depth { name := "d", typeName := "dataset" }))
  rw [normalize, Journal.outcome_bind, outcome]
  rfl

theorem isTidy_numberedDataset :
    rootDepth ≤ (Instance.id { name := "d", typeName := "dataset" }).depth ∧
    Wire.AreRegular (.map numberedDataset) ∧
    (normalize ⟨Schema.dataset, none, {}⟩ (Instance.id { name := "d", typeName := "dataset" })
      (.map numberedDataset)).outcome = .ok (some (.map [(.text "version", .text "7")])) ∧
    Schema.dataset.Stands (some Schema.dataset.rootRef) (.map [(.text "version", .text "7")])
      (some (.primitive .string)) (.text "7") ∧
    Graph.IsTidy (some (.primitive .string)) (.text "7") := by
  have deep := rootDepth_le_depth { name := "d", typeName := "dataset" }
  have stands : Schema.dataset.Stands (some Schema.dataset.rootRef)
      (.map [(.text "version", .text "7")]) (some (.primitive .string)) (.text "7") :=
    .entry List.mem_cons_self (.self _ _)
  exact ⟨deep, areRegular_numberedDataset, normalize_numberedDataset, stands,
    isTidy_of_normalize deep areRegular_numberedDataset normalize_numberedDataset stands⟩

end Normalizer

end DefinitionTree
