/-
DefinitionTree/Proofs/Canonical/Cycle.lean

Denormalizing and normalizing again.

In an orderly schema without defaults, a canonical value that is brought into its
wire form and normalized again comes back up to the order of keys.  There is one
exception: a mapping that is held under a discriminated key which reads as a
number, such as `5`, gets the key as its tag, the tag is wrapped so that it
stays a text, and the wrapped tag is refused.

Main definitions and statements:

* `Normalizer.cycle`: denormalizing and normalizing again;
* `Tree.HoldsMapUnder`: a mapping stands under such a key;
* `Normalizer.cycle_of_no_default`: what comes back, in every case.
-/
import DefinitionTree.Definition.Deploy
import DefinitionTree.Proofs.Canonical.Direct
import DefinitionTree.Proofs.Schema.Kind
import DefinitionTree.Proofs.Tree.Alike

namespace DefinitionTree

/-! ### Mappings under certain keys -/

/-- Somewhere in the tree a mapping is held under one of these texts. -/
inductive Tree.HoldsMapUnder (among : String → Prop) : Tree → Prop
  | here {es : Entries} {s : String} {inner : Entries} :
    (.text s, .map inner) ∈ es → among s → HoldsMapUnder among (.map es)
  | entry {es : Entries} {e : Key × Tree} :
    e ∈ es → HoldsMapUnder among e.2 → HoldsMapUnder among (.map es)
  | item {ts : List Tree} {t : Tree} :
    t ∈ ts → HoldsMapUnder among t → HoldsMapUnder among (.list ts)

namespace Normalizer

variable {n : Normalizer} {a : Admission} {restore : Field → Tree} {held : Option Key}
  {type : Option TypeRef}

/-- The text is a discriminated key and reads as a number. -/
def IsMisread (n : Normalizer) (s : String) : Prop :=
  s ∈ n.settings.discriminatedKeys ∧ Text.isNumberLike s = true

/-- The wire form of a value, normalized again. -/
def cycle (n : Normalizer) (place : ElementId) (t : Tree) : Except Failure (Option Tree) := do
  let w ← wireForm n.settings n.graph place t
  (n.normalize place w).outcome

/-! ### Keys that are misread -/

theorem misreads_text_iff {s : String} : n.misreads (some (.text s)) = true ↔ n.IsMisread s := by
  simp [misreads, IsMisread, discriminates, Wire.isDiscriminated, Wire.isAmong]

theorem not_isMisread {s : String} (h : Text.isNumberLike s = false) : ¬n.IsMisread s := by
  rintro ⟨-, numberLike⟩
  rw [h] at numberLike
  cases numberLike

/-- Whether a mapping is misread depends on its key alone: neither the name of a
variant nor the key that shows a tag reads as a number. -/
theorem misreads_heldInside {es : Entries} (fits : n.Fits held type es) {s : String}
    (mem : Key.text s ∈ keysOf es) :
    n.misreads (n.heldInside held type (.text s)) = true ↔ n.IsMisread s := by
  by_cases keeps : n.graph.keepsTagAt type = true
  · obtain ⟨s', inner, rfl, word, -⟩ := fits.variant keeps
    have eq : s = s' := by simpa using mem
    subst eq
    rw [heldInside_variant keeps]
    exact iff_of_false (by simp [misreads]) (not_isMisread word)
  · rw [Bool.not_eq_true] at keeps
    by_cases shown : Key.text s = Wire.exposedKey
    · have eq : s = "xmlType" := by simpa [Wire.exposedKey] using shown
      subst eq
      have word : Text.isNumberLike "xmlType" = false := by decide
      have none : n.misreads (n.heldInside held type (.text "xmlType")) = false := by
        unfold heldInside
        split
        · rfl
        · have tag : Text.isNumberLike "_T_" = false := by decide
          split <;> simp [misreads, Wire.tagKey, tag, word]
      rw [none]
      exact iff_of_false (by simp) (not_isMisread word)
    · rw [heldInside_of_shown keeps shown]
      exact misreads_text_iff

/-! ### Values that come back, and values that do not -/

/-- A canonical value settles to one that is alike, unless a mapping in it is
misread, which is an error. -/
structure Returns (n : Normalizer) (a : Admission) (restore : Field → Tree) (t : Tree) : Prop where
  alike : ∀ held type, n.Canonical a held type t → ¬t.HoldsMapUnder n.IsMisread →
    (t.isMap = true → n.misreads held = false) →
    ∃ u, n.settle restore held type t = .ok u ∧ t.Alike u ∧ u.isEmpty = false
  error : ∀ held type, n.Canonical a held type t →
    (t.HoldsMapUnder n.IsMisread ∨ t.isMap = true ∧ n.misreads held = true) →
    n.settle restore held type t = .error .compoundTag

/-- A canonical value settles, or fails with `compoundTag`: no other error comes up. -/
theorem Returns.only {t : Tree} (h : n.Returns a restore t) (canonical : n.Canonical a held type t) :
    (∃ u, n.settle restore held type t = .ok u) ∨
      n.settle restore held type t = .error .compoundTag := by
  by_cases misread : t.HoldsMapUnder n.IsMisread ∨ t.isMap = true ∧ n.misreads held = true
  · exact .inr (h.error held type canonical misread)
  · rw [not_or, not_and, Bool.not_eq_true] at misread
    obtain ⟨u, eq, -⟩ := h.alike held type canonical misread.1 misread.2
    exact .inl ⟨u, eq⟩

theorem returns_leaf {t : Tree} (scalar : t.key?.isSome = true) : n.Returns a restore t := by
  refine ⟨fun held type h _ _ => ?_, fun held type h misread => ?_⟩
  · have isScalar := a.isScalar (canonical_leaf scalar h)
    refine ⟨t, settle_of_isScalar isScalar, .refl t, ?_⟩
    cases t with
    | null => exact isScalar.elim
    | list => cases scalar
    | map => cases scalar
    | _ => rfl
  · cases t with
    | list => cases scalar
    | map => cases scalar
    | _ =>
      rcases misread with misread | ⟨map, -⟩
      · cases misread
      · cases map

/-! #### Lists -/

theorem settleItems_alike {ts : List Tree} (ih : ∀ t ∈ ts, n.Returns a restore t) {index : Nat}
    (h : n.CanonicalItems a type index ts)
    (clean : ∀ t ∈ ts, ¬t.HoldsMapUnder n.IsMisread) :
    ∃ us, n.settleItems restore type index ts = us.map .ok ∧ Tree.AlikeItems ts us ∧
      ∀ u ∈ us, u.isEmpty = false := by
  induction ts generalizing index with
  | nil => exact ⟨[], rfl, rfl, by simp⟩
  | cons t ts ihs =>
    obtain ⟨here, there⟩ := h
    obtain ⟨u, eq, alike, some_⟩ := (ih t List.mem_cons_self).alike _ type here
      (clean t List.mem_cons_self) fun _ => rfl
    obtain ⟨us, eqs, alikes, somes⟩ := ihs (fun u hu => ih u (List.mem_cons_of_mem _ hu)) there
      fun u hu => clean u (List.mem_cons_of_mem _ hu)
    refine ⟨u :: us, ?_, ⟨u, us, rfl, alike, alikes⟩, List.forall_mem_cons.mpr ⟨some_, somes⟩⟩
    rw [settleItems, eq, eqs]
    rfl

theorem settleItems_error {ts : List Tree} (ih : ∀ t ∈ ts, n.Returns a restore t) (index : Nat)
    (h : n.CanonicalItems a type index ts) :
    (∀ x ∈ n.settleItems restore type index ts, (∃ u, x = .ok u) ∨ x = .error .compoundTag) ∧
      ((∃ t ∈ ts, t.HoldsMapUnder n.IsMisread) →
        .error .compoundTag ∈ n.settleItems restore type index ts) := by
  induction ts generalizing index with
  | nil => exact ⟨fun _ hx => (nomatch hx), fun ⟨_, ht, _⟩ => (nomatch ht)⟩
  | cons t ts ihs =>
    obtain ⟨here, there⟩ := h
    obtain ⟨only, error⟩ := ihs (fun u hu => ih u (List.mem_cons_of_mem _ hu)) (index + 1) there
    have returns := ih t List.mem_cons_self
    refine ⟨List.forall_mem_cons.mpr ⟨returns.only here, only⟩, ?_⟩
    rintro ⟨u, mem, misread⟩
    rw [settleItems]
    rcases List.mem_cons.mp mem with rfl | mem
    · rw [returns.error _ type here (.inl misread)]
      exact List.mem_cons_self
    · exact List.mem_cons_of_mem _ (error ⟨u, mem, misread⟩)

theorem returns_list {ts : List Tree} (ih : ∀ t ∈ ts, n.Returns a restore t) :
    n.Returns a restore (.list ts) := by
  refine ⟨fun held type h clean _ => ?_, fun held type h misread => ?_⟩
  · obtain ⟨us, eq, alike, some_⟩ :=
      settleItems_alike ih h.2 fun t ht holds => clean (.item ht holds)
    have all : us.filter (fun u => !u.isEmpty) = us :=
      List.filter_eq_self.mpr fun u hu => by rw [some_ u hu]; rfl
    refine ⟨.list us, ?_, ⟨us, rfl, alike⟩, ?_⟩
    · rw [settle, eq, collectItems_ok, all]
      rfl
    · cases ts with
      | nil => exact absurd rfl h.1
      | cons t ts =>
        obtain ⟨u, us', rfl, -⟩ := alike
        rfl
  · obtain ⟨only, error⟩ := settleItems_error ih 0 h.2
    rcases misread with misread | ⟨map, -⟩
    · cases misread with
      | item mem holds =>
        rw [settle, collectItems_error only (error ⟨_, mem, holds⟩)]
        rfl
    · cases map

/-! #### Mappings -/

theorem settleEntries_alike {heldAt : Key → Option Key} {es : Entries}
    (h : ∀ e ∈ es, ∃ u, n.settle restore (heldAt e.1) (n.graph.fieldType type e.1) e.2 = .ok u ∧
      e.2.Alike u ∧ u.isEmpty = false) :
    ∃ us : Entries, n.settleEntries restore heldAt type es = us.map (fun e => (e.1, .ok e.2)) ∧
      Tree.AlikeEntries es us ∧ ∀ e ∈ us, e.2.isEmpty = false := by
  induction es with
  | nil => exact ⟨[], rfl, rfl, by simp⟩
  | cons e es ih =>
    obtain ⟨k, t⟩ := e
    obtain ⟨⟨u, eq, alike, some_⟩, there⟩ := List.forall_mem_cons.mp h
    obtain ⟨us, eqs, alikes, somes⟩ := ih there
    refine ⟨(k, u) :: us, ?_, ⟨u, us, rfl, alike, alikes⟩, List.forall_mem_cons.mpr ⟨some_, somes⟩⟩
    simp only at eq
    rw [settleEntries, eq, eqs]
    rfl

/-- What a mapping's entries settle to together, where all of them come back and
what is put in vanishes. -/
theorem settle_map_ok (vanish : ∀ f, (restore f).isEmpty = true) {es us : Entries}
    (read : n.misreads held = false)
    (eq : n.settleEntries restore (n.heldInside held type) type es
      = us.map fun e => (e.1, .ok e.2))
    (some_ : ∀ e ∈ us, e.2.isEmpty = false) :
    ∃ fs, n.settle restore held type (.map es) = .ok (.map fs) ∧ fs.Perm us := by
  let put : Entries := (n.putBack type es).map fun f => (.text f.name, restore f)
  have outcomes : n.settleEntries restore (n.heldInside held type) type es
        ++ (n.putBack type es).map (fun f => (Key.text f.name, Except.ok (restore f)))
      = (us ++ put).map fun e => (e.1, .ok e.2) := by
    rw [eq, List.map_append, List.map_map]
    rfl
  have own : us.filter (fun e => !e.2.isEmpty) = us :=
    List.filter_eq_self.mpr fun e he => by rw [some_ e he]; rfl
  have gone : put.filter (fun e => !e.2.isEmpty) = [] := by
    refine List.filter_eq_nil_iff.mpr fun e he => ?_
    obtain ⟨f, -, rfl⟩ := List.mem_map.mp he
    rw [vanish f]
    decide
  refine ⟨(n.arranged held (us ++ put)).filter fun e => !e.2.isEmpty, ?_, ?_⟩
  · rw [settle, read, outcomes, arranged_map, collect_ok]
    rfl
  · have perm := (n.arranged_perm held (us ++ put)).filter fun e => !e.2.isEmpty
    rwa [List.filter_append, own, gone, List.append_nil] at perm

/-- One value that is an error makes the mapping an error. -/
theorem settle_map_error {es : Entries}
    (only : ∀ e ∈ es, (∃ u, n.settle restore (n.heldInside held type e.1)
        (n.graph.fieldType type e.1) e.2 = .ok u) ∨
      n.settle restore (n.heldInside held type e.1) (n.graph.fieldType type e.1) e.2
        = .error .compoundTag)
    (error : n.misreads held = true ∨ ∃ e ∈ es, n.settle restore (n.heldInside held type e.1)
      (n.graph.fieldType type e.1) e.2 = .error .compoundTag) :
    n.settle restore held type (.map es) = .error .compoundTag := by
  rw [settle]
  split
  · rfl
  · rename_i read
    obtain ⟨e, mem, eq⟩ := error.resolve_left read
    rw [collect_error (f := .compoundTag)]
    · rfl
    · intro x hx
      rw [(n.arranged_perm held _).mem_iff, List.mem_append, settleEntries_eq_map] at hx
      rcases hx with hx | hx
      · obtain ⟨e, mem, rfl⟩ := List.mem_map.mp hx
        exact only e mem
      · obtain ⟨f, -, rfl⟩ := List.mem_map.mp hx
        exact .inl ⟨restore f, rfl⟩
    · refine ⟨(e.1, n.settle restore (n.heldInside held type e.1) (n.graph.fieldType type e.1) e.2),
        (n.arranged_perm held _).mem_iff.mpr (List.mem_append_left _ ?_), eq⟩
      rw [settleEntries_eq_map]
      exact List.mem_map_of_mem (f := fun e => (e.1, n.settle restore _ _ e.2)) mem

theorem returns_map (vanish : ∀ f, (restore f).isEmpty = true) {es : Entries}
    (ih : ∀ e ∈ es, n.Returns a restore e.2) : n.Returns a restore (.map es) := by
  refine ⟨fun held type h clean read => ?_, fun held type h misread => ?_⟩
  · obtain ⟨fits, entries⟩ := h
    have values := canonicalEntries_iff.mp entries
    have inside : ∀ e ∈ es, ∃ u, n.settle restore (n.heldInside held type e.1)
        (n.graph.fieldType type e.1) e.2 = .ok u ∧ e.2.Alike u ∧ u.isEmpty = false := by
      intro e he
      refine (ih e he).alike _ _ (values e he).2 (fun holds => clean (.entry he holds)) ?_
      -- a mapping inside is misread under the same keys as in the value
      intro map
      obtain ⟨k, t⟩ := e
      obtain ⟨s, rfl, -⟩ := (values _ he).1
      cases t with
      | map inner =>
        rw [← Bool.not_eq_true, misreads_heldInside fits (mem_keysOf he)]
        exact fun misread => clean (.here he misread)
      | _ => cases map
    obtain ⟨us, eq, alike, some_⟩ := settleEntries_alike inside
    obtain ⟨fs, settled, perm⟩ := settle_map_ok vanish (read rfl) eq some_
    refine ⟨.map fs, settled, ⟨fs, rfl, us, perm, alike⟩, ?_⟩
    -- the values are all something, so the mapping that they make is too
    cases es with
    | nil => exact absurd rfl fits.nonempty
    | cons e es =>
      obtain ⟨u, us', rfl, -⟩ := alike
      cases fs with
      | nil => exact absurd perm.length_eq (by simp)
      | cons => rfl
  · obtain ⟨fits, entries⟩ := h
    have values := canonicalEntries_iff.mp entries
    refine settle_map_error (fun e he => (ih e he).only (values e he).2) ?_
    rcases misread with misread | ⟨-, misread⟩
    · right
      cases misread with
      | @here _ s inner mem among =>
        refine ⟨_, mem, (ih _ mem).error _ _ (values _ mem).2 (.inr ⟨rfl, ?_⟩)⟩
        exact (misreads_heldInside fits (mem_keysOf mem)).mpr among
      | entry mem holds => exact ⟨_, mem, (ih _ mem).error _ _ (values _ mem).2 (.inl holds)⟩
    · exact .inl misread

/-- Every canonical value comes back, or is an error for one reason. -/
theorem returns (vanish : ∀ f, (restore f).isEmpty = true) (t : Tree) :
    n.Returns a restore t := by
  induction t using Tree.induct with
  | leaf t scalar => exact returns_leaf scalar
  | list ts ih => exact returns_list ih
  | map es ih => exact returns_map vanish ih

/-! ### Whole definitions -/

/-- The wire form of a canonical definition that is a mapping. -/
theorem wireForm_map {p : Passage n a} (faithful : p.IsFaithful restore)
    (complete : n.graph.HasCompletePlaceholders) {place : ElementId}
    (deep : rootDepth ≤ place.depth) {es : Entries}
    (h : n.Canonical a none (some n.graph.rootRef) (.map es)) :
    wireForm n.settings n.graph place (.map es)
      = .ok (.map (n.wired none (some n.graph.rootRef) es)) := by
  rw [wireForm, Graph.complete_map complete deep]
  exact congrArg Except.ok (Passage.written_root faithful faithful.orderly.root h)

/-- The cycle of a canonical definition gives what the definition settles to. -/
theorem cycle_eq_settle (lookup : n.lookup = none)
    (faithful : (Passage.direct n lookup).IsFaithful restore)
    (complete : n.graph.HasCompletePlaceholders) {place : ElementId}
    (deep : rootDepth ≤ place.depth) {es : Entries}
    (h : n.Canonical .direct none (some n.graph.rootRef) (.map es)) :
    n.cycle place (.map es) = do
      let u ← n.settle restore none (some n.graph.rootRef) (.map es)
      return if u.isEmpty then none else some u := by
  have settles := (Passage.direct n lookup).settles faithful (.map es)
  have plain := (settles.admitted es _ rfl h faithful.orderly.root).plain
  have carried : List.Forall₂ (CarriesEntry (Passage.direct n lookup).carries)
      (n.wired none (some n.graph.rootRef) es) (n.wired none (some n.graph.rootRef) es) :=
    List.forall₂_same.mpr fun _ _ => ⟨rfl, rfl⟩
  have entries := settles.free es _ _ rfl h faithful.orderly.root carried
  have gives := gives_plain (Wire.sentinelOf?_eq_none plain.typeKey_notMem)
    (Entries.get?_eq_none plain.tagKey_notMem) entries
  have outcome : (n.walk (some n.graph.rootRef) place
      (.map (n.wired none (some n.graph.rootRef) es))).outcome
      = n.settle restore none (some n.graph.rootRef) (.map es) :=
    gives place (Graph.counts_root deep)
  rw [cycle, wireForm_map faithful complete deep h]
  show (n.normalize place _).outcome = _
  rw [normalize, Journal.outcome_bind, outcome]
  rfl

section NoDefaults

variable (lookup : n.lookup = none) (orderly : n.graph.IsOrderly)
  (noDefault : n.graph.HasNoDefaults)
  (ignored : ∀ s ∈ n.settings.discriminatedKeys, s ∈ n.settings.ignoredTags)

include orderly noDefault ignored in
/-- Without defaults nothing stays of the fields that are put in. -/
theorem isFaithful_of_no_default : (Passage.direct n lookup).IsFaithful
    fun f => (n.graph.fieldPlaceholder f).emptied :=
  ⟨orderly, (Passage.direct n lookup).restores_of_no_default noDefault fun _ _ _ _ => trivial,
    ignored, fun _ _ => trivial⟩

variable {es : Entries} (i : Instance)
  (canonical : n.Canonical .direct none (some n.graph.rootRef) (.map es))

include lookup orderly noDefault ignored canonical in
/-- Without misread keys a definition comes back up to the order of keys. -/
theorem cycle_alike (clean : ¬(Tree.map es).HoldsMapUnder n.IsMisread) :
    ∃ u, n.cycle i.id (.map es) = .ok (some u) ∧ (Tree.map es).Alike u := by
  have faithful := isFaithful_of_no_default lookup orderly noDefault ignored
  have vanish (f : Field) : (n.graph.fieldPlaceholder f).emptied.isEmpty = true :=
    Placeholder.isEmpty_emptied _
  obtain ⟨u, settled, alike, some_⟩ :=
    (returns vanish (.map es)).alike none _ canonical clean fun _ => rfl
  refine ⟨u, ?_, alike⟩
  rw [cycle_eq_settle lookup faithful (Graph.hasCompletePlaceholders_of_no_default noDefault)
    (rootDepth_le_depth i) canonical, settled]
  simp [some_]

include lookup orderly noDefault ignored canonical in
/-- A misread key is an error. -/
theorem cycle_misread (misread : (Tree.map es).HoldsMapUnder n.IsMisread) :
    n.cycle i.id (.map es) = .error .compoundTag := by
  have faithful := isFaithful_of_no_default lookup orderly noDefault ignored
  have vanish (f : Field) : (n.graph.fieldPlaceholder f).emptied.isEmpty = true :=
    Placeholder.isEmpty_emptied _
  rw [cycle_eq_settle lookup faithful (Graph.hasCompletePlaceholders_of_no_default noDefault)
    (rootDepth_le_depth i) canonical,
    (returns vanish (.map es)).error none _ canonical (.inl misread)]
  rfl

include lookup orderly noDefault ignored canonical in
/-- In an orderly schema without defaults every canonical definition comes back up
to the order of keys, unless it holds a mapping under a discriminated key that
reads as a number; then there is an error. -/
theorem cycle_of_no_default :
    (¬(Tree.map es).HoldsMapUnder n.IsMisread →
      ∃ u, n.cycle i.id (.map es) = .ok (some u) ∧ (Tree.map es).Alike u) ∧
    ((Tree.map es).HoldsMapUnder n.IsMisread →
      n.cycle i.id (.map es) = .error .compoundTag) :=
  ⟨cycle_alike lookup orderly noDefault ignored i canonical,
    cycle_misread lookup orderly noDefault ignored i canonical⟩

end NoDefaults

/-- None of the keys that are discriminated by default reads as a number. -/
theorem not_isMisread_of_default (default_ : n.settings.discriminatedKeys = ["formula"])
    (s : String) : ¬n.IsMisread s := by
  rintro ⟨known, numberLike⟩
  rw [default_, List.mem_singleton] at known
  subst known
  exact absurd numberLike (by decide)

theorem not_holdsMapUnder {among : String → Prop} (none : ∀ s, ¬among s) (t : Tree) :
    ¬t.HoldsMapUnder among := by
  intro h
  induction h with
  | here _ h => exact none _ h
  | entry _ _ ih => exact ih
  | item _ _ ih => exact ih

/-- A dataset whose criteria stand under their tag, and whose application shows a
tag behind its other field. -/
def sampleDataset : Entries := [
  (.text "criteria", .map [(.text "condition", .map [(.text "fieldStateName", .text "7")])]),
  (.text "applicationId", .map [(.text "b", .bool true), (.text "xmlType", .text "a")])]

theorem canonical_sampleDataset :
    Canonical ⟨Schema.dataset, none, {}⟩ .direct none (some Schema.dataset.rootRef)
      (.map sampleDataset) := by
  decide

theorem cycle_sampleDataset :
    Schema.dataset.IsOrderly ∧ Schema.dataset.HasNoDefaults ∧
    Canonical ⟨Schema.dataset, none, {}⟩ .direct none (some Schema.dataset.rootRef)
      (.map sampleDataset) ∧
    ∃ u, cycle ⟨Schema.dataset, none, {}⟩ (Instance.id { name := "d", typeName := "dataset" })
      (.map sampleDataset) = .ok (some u) ∧ (Tree.map sampleDataset).Alike u := by
  refine ⟨Schema.dataset_isOrderly, Schema.dataset_hasNoDefaults, canonical_sampleDataset, ?_⟩
  refine (cycle_of_no_default (n := ⟨Schema.dataset, none, {}⟩) rfl Schema.dataset_isOrderly
    Schema.dataset_hasNoDefaults (by decide) _ canonical_sampleDataset).1 ?_
  exact not_holdsMapUnder (not_isMisread_of_default rfl) _

/-- A schema whose root has a union under the name `5`. -/
def numberNamed : Graph where
  root := ⟨"r", [{ name := "5", type := .named "u" }], false, false⟩
  others := [⟨"u", [{ name := "a", type := .primitive .string }], true, true⟩]

/-- With `5` as a discriminated key, a mapping under it does not come back. -/
theorem cycle_numberNamed :
    numberNamed.IsOrderly ∧ numberNamed.HasNoDefaults ∧
    Canonical ⟨numberNamed, none, { ignoredTags := ["5"], discriminatedKeys := ["5"] }⟩ .direct none
      (some numberNamed.rootRef) (.map [(.text "5", .map [(.text "a", .text "x")])]) ∧
    cycle ⟨numberNamed, none, { ignoredTags := ["5"], discriminatedKeys := ["5"] }⟩
      (Instance.id { name := "v", typeName := "r" })
      (.map [(.text "5", .map [(.text "a", .text "x")])]) = .error .compoundTag := by
  have orderly : numberNamed.IsOrderly := by decide
  have noDefault : numberNamed.HasNoDefaults := by decide
  have canonical : Canonical ⟨numberNamed, none, { ignoredTags := ["5"], discriminatedKeys := ["5"] }⟩
      .direct none (some numberNamed.rootRef)
      (.map [(.text "5", .map [(.text "a", .text "x")])]) := by decide
  refine ⟨orderly, noDefault, canonical, ?_⟩
  exact cycle_misread rfl orderly noDefault (by decide) _ canonical
    (.here List.mem_cons_self ⟨List.mem_cons_self, by decide⟩)

end Normalizer

end DefinitionTree
