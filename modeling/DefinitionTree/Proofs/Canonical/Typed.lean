/-
DefinitionTree/Proofs/Canonical/Typed.lean

Well-typed values.

A well-typed value holds what its schema declares and nothing else: declared
fields, non-empty lists and mappings, and scalars of the builtin types.  Which
scalars a builtin type admits is left open.  Where the schema and the settings
agree on which unions drop their tags, every well-typed value is canonical.

Main definitions and statements:

* `Graph.WellTyped`: the well-typed values of a type;
* `Normalizer.Agrees`: what the schema and the settings have to agree on;
* `Normalizer.canonical_of_wellTyped`: well-typed values are canonical.
-/
import DefinitionTree.Proofs.Canonical.Settling

namespace DefinitionTree

/-- What a builtin type admits: texts, numbers, truth values, or any scalar. -/
def Primitive.admits : Primitive → Tree → Bool
  | .string, .text _ => true
  | .serviceId, .text _ => true
  | .number, .int _ => true
  | .number, .float _ => true
  | .boolean, .bool _ => true
  | .unknown, .text _ => true
  | .unknown, .int _ => true
  | .unknown, .float _ => true
  | .unknown, .bool _ => true
  | _, _ => false

namespace Graph

/-! ### Well-typed values -/

/-- The declared type of a list's items.  A value of which nothing is known may be
a list of such values. -/
def listedType : Option TypeRef → Option TypeRef
  | some (.list item) => some item
  | some (.primitive .unknown) => some (.primitive .unknown)
  | _ => none

/-- What is required of one mapping: it has an object type and different keys, and
at a union that keeps its tag a single variant, which is a mapping. -/
structure HasShape (g : Graph) (type : Option TypeRef) (es : Entries) : Prop where
  nonempty : es ≠ []
  distinct : (keysOf es).Nodup
  object : (g.objectAt? type).isSome = true
  variant : g.keepsTagAt type = true → ∃ k inner, es = [(k, .map inner)]

mutual

/-- The well-typed values of a type, where these scalars are let in. -/
def WellTyped (g : Graph) (admits : Primitive → Tree → Bool) (type : Option TypeRef) :
    Tree → Prop
  | .list ts => ts ≠ [] ∧ g.ItemsTyped admits (listedType type) ts
  | .map es => g.HasShape type es ∧ g.EntriesTyped admits type es
  | t => ∃ p, type = some (.primitive p) ∧ admits p t = true

/-- The items of a list are well typed. -/
def ItemsTyped (g : Graph) (admits : Primitive → Tree → Bool) (type : Option TypeRef) :
    List Tree → Prop
  | [] => True
  | t :: rest => g.WellTyped admits type t ∧ g.ItemsTyped admits type rest

/-- The entries of a mapping are declared and well typed. -/
def EntriesTyped (g : Graph) (admits : Primitive → Tree → Bool) (type : Option TypeRef) :
    Entries → Prop
  | [] => True
  | (k, t) :: rest =>
    (g.fieldType type k).isSome = true ∧ g.WellTyped admits (g.fieldType type k) t ∧
      g.EntriesTyped admits type rest

end

variable {g : Graph} {admits : Primitive → Tree → Bool} {type : Option TypeRef}

theorem itemsTyped_iff {ts : List Tree} :
    g.ItemsTyped admits type ts ↔ ∀ t ∈ ts, g.WellTyped admits type t := by
  induction ts with
  | nil => simp [ItemsTyped]
  | cons t ts ih => rw [ItemsTyped, ih, List.forall_mem_cons]

theorem entriesTyped_iff {es : Entries} :
    g.EntriesTyped admits type es ↔ ∀ e ∈ es,
      (g.fieldType type e.1).isSome = true ∧ g.WellTyped admits (g.fieldType type e.1) e.2 := by
  induction es with
  | nil => simp [EntriesTyped]
  | cons e es ih =>
    obtain ⟨k, t⟩ := e
    rw [EntriesTyped, ih, List.forall_mem_cons, and_assoc]

/-- What is neither a list nor a mapping is well typed where a builtin type admits
it. -/
theorem wellTyped_leaf {t : Tree} (scalar : t.key?.isSome = true) :
    g.WellTyped admits type t ↔ ∃ p, type = some (.primitive p) ∧ admits p t = true := by
  cases t with
  | list => cases scalar
  | map => cases scalar
  | _ => exact Iff.rfl

/-- A declared entry is that of a field. -/
theorem exists_field {k : Key} (h : (g.fieldType type k).isSome = true) :
    ∃ o s f, g.objectAt? type = some o ∧ k = .text s ∧ f ∈ o.fields ∧ f.name = s ∧
      g.fieldType type k = some f.type := by
  unfold fieldType at h ⊢
  rcases object : g.objectAt? type with - | o
  · simp [object] at h
  · cases k with
    | text s =>
      rcases field : o.field? s with - | f
      · simp [object, field] at h
      · exact ⟨o, s, f, rfl, rfl, List.mem_of_find?_eq_some field,
          by simpa using List.find?_some field, by simp [field]⟩
    | _ => simp [object] at h

/-! ### Deciding -/

/-- The mapping has a single entry, which is a mapping. -/
def isVariant : Entries → Bool
  | [(_, .map _)] => true
  | _ => false

theorem isVariant_iff {es : Entries} :
    isVariant es = true ↔ ∃ k inner, es = [(k, .map inner)] := by
  constructor
  · intro h
    unfold isVariant at h
    split at h
    · exact ⟨_, _, rfl⟩
    · cases h
  · rintro ⟨k, inner, rfl⟩
    rfl

instance (g : Graph) (type : Option TypeRef) (es : Entries) : Decidable (g.HasShape type es) :=
  decidable_of_iff
    (es.isEmpty = false ∧ (keysOf es).Nodup ∧ (g.objectAt? type).isSome = true ∧
      (g.keepsTagAt type = true → isVariant es = true))
    ⟨fun ⟨nonempty, distinct, object, variant⟩ =>
        ⟨by simpa using nonempty, distinct, object, fun h => isVariant_iff.mp (variant h)⟩,
      fun ⟨nonempty, distinct, object, variant⟩ =>
        ⟨by simpa using nonempty, distinct, object, fun h => isVariant_iff.mpr (variant h)⟩⟩

/-- Whether a scalar is well typed can be decided. -/
def decideLeaf (g : Graph) (admits : Primitive → Tree → Bool) (t : Tree)
    (scalar : t.key?.isSome = true) :
    (type : Option TypeRef) → Decidable (g.WellTyped admits type t)
  | some (.primitive p) =>
    decidable_of_iff (admits p t = true) ((wellTyped_leaf scalar).trans (by simp)).symm
  | some (.list _) => isFalse fun h => by simpa using (wellTyped_leaf scalar).mp h
  | some (.named _) => isFalse fun h => by simpa using (wellTyped_leaf scalar).mp h
  | none => isFalse fun h => by simpa using (wellTyped_leaf scalar).mp h

mutual

/-- Whether a value is well typed can be decided. -/
def decideWellTyped (g : Graph) (admits : Primitive → Tree → Bool) :
    (type : Option TypeRef) → (t : Tree) → Decidable (g.WellTyped admits type t)
  | type, .list ts =>
    have := decideItems g admits (listedType type) ts
    decidable_of_iff (ts.isEmpty = false ∧ g.ItemsTyped admits (listedType type) ts)
      (by rw [WellTyped, List.isEmpty_eq_false_iff])
  | type, .map es =>
    have := decideEntries g admits type es
    inferInstanceAs (Decidable (g.HasShape type es ∧ _))
  | type, .null => decideLeaf g admits .null rfl type
  | type, .bool b => decideLeaf g admits (.bool b) rfl type
  | type, .int i => decideLeaf g admits (.int i) rfl type
  | type, .float x => decideLeaf g admits (.float x) rfl type
  | type, .text s => decideLeaf g admits (.text s) rfl type
  | type, .ref id target => decideLeaf g admits (.ref id target) rfl type

/-- Whether the items of a list are well typed can be decided. -/
def decideItems (g : Graph) (admits : Primitive → Tree → Bool) :
    (type : Option TypeRef) → (ts : List Tree) → Decidable (g.ItemsTyped admits type ts)
  | _, [] => isTrue trivial
  | type, t :: rest =>
    have := decideWellTyped g admits type t
    have := decideItems g admits type rest
    inferInstanceAs (Decidable (_ ∧ _))

/-- Whether the entries of a mapping are well typed can be decided. -/
def decideEntries (g : Graph) (admits : Primitive → Tree → Bool) :
    (type : Option TypeRef) → (es : Entries) → Decidable (g.EntriesTyped admits type es)
  | _, [] => isTrue trivial
  | type, (k, t) :: rest =>
    have := decideWellTyped g admits (g.fieldType type k) t
    have := decideEntries g admits type rest
    inferInstanceAs (Decidable (_ ∧ _ ∧ _))

end

instance (g : Graph) (admits : Primitive → Tree → Bool) (type : Option TypeRef) (t : Tree) :
    Decidable (g.WellTyped admits type t) :=
  decideWellTyped g admits type t

/-! ### Types of well-typed values -/

/-- Only a named type has an object type. -/
theorem exists_named {o : ObjectType} (h : g.objectAt? type = some o) :
    type = some (.named o.name) ∧ o ∈ g.types := by
  refine ⟨?_, mem_types_of_objectAt? h⟩
  obtain ⟨r, rfl, hr⟩ := Option.bind_eq_some_iff.mp h
  cases r with
  | named name =>
    have found : o.name = name := by simpa using List.find?_some hr
    rw [found]
  | _ => cases hr

/-- Of a type that is not declared no value is well typed. -/
theorem not_wellTyped_none (t : Tree) : ¬g.WellTyped admits none t := by
  induction t using Tree.induct with
  | leaf t scalar => simp [wellTyped_leaf scalar]
  | list ts ih =>
    rintro ⟨ne, items⟩
    obtain ⟨t, ht⟩ := List.exists_mem_of_ne_nil ts ne
    exact ih t ht (itemsTyped_iff.mp items t ht)
  | map es ih =>
    rintro ⟨shape, -⟩
    exact absurd shape.object (by simp [objectAt?])

/-- A well-typed value of a named type is a mapping. -/
theorem isMap_of_wellTyped {name : String} {t : Tree}
    (h : g.WellTyped admits (some (.named name)) t) : ∃ es, t = .map es := by
  cases t with
  | map es => exact ⟨es, rfl⟩
  | list ts =>
    obtain ⟨ne, items⟩ := h
    obtain ⟨t, ht⟩ := List.exists_mem_of_ne_nil ts ne
    exact absurd (itemsTyped_iff.mp items t ht) (not_wellTyped_none t)
  | _ =>
    obtain ⟨p, eq, -⟩ := h
    cases eq

/-- A well-typed value of a list type is a list. -/
theorem isList_of_wellTyped {item : TypeRef} {t : Tree}
    (h : g.WellTyped admits (some (.list item)) t) : ∃ ts, t = .list ts := by
  cases t with
  | list ts => exact ⟨ts, rfl⟩
  | map es => exact absurd h.1.object (by simp [objectAt?, object?])
  | _ =>
    obtain ⟨p, eq, -⟩ := h
    cases eq

end Graph

namespace Normalizer

variable {n : Normalizer} {a : Admission} {admits : Primitive → Tree → Bool}

/-! ### Well-typed values are canonical -/

/-- Discriminated keys are names of unions that drop their tags, the names of
variants are not dropped, and neither of the two read as numbers. -/
structure Agrees (n : Normalizer) : Prop where
  words : ∀ s ∈ n.settings.discriminatedKeys, Text.isNumberLike s = false
  discriminated : ∀ t ∈ n.graph.types, ∀ f ∈ t.fields,
    n.discriminates (.text f.name) = true → n.graph.dropsTagAt (some f.type) = true
  variants : ∀ t ∈ n.graph.types, t.keepsTag = true → ∀ f ∈ t.fields,
    Text.isNumberLike f.name = false ∧ f.name ∉ n.settings.ignoredTags

instance (n : Normalizer) : Decidable n.Agrees :=
  decidable_of_iff
    ((∀ s ∈ n.settings.discriminatedKeys, Text.isNumberLike s = false) ∧
      (∀ t ∈ n.graph.types, ∀ f ∈ t.fields,
        n.discriminates (.text f.name) = true → n.graph.dropsTagAt (some f.type) = true) ∧
      ∀ t ∈ n.graph.types, t.keepsTag = true → ∀ f ∈ t.fields,
        Text.isNumberLike f.name = false ∧ f.name ∉ n.settings.ignoredTags)
    ⟨fun ⟨words, discriminated, variants⟩ => ⟨words, discriminated, variants⟩,
      fun ⟨words, discriminated, variants⟩ => ⟨words, discriminated, variants⟩⟩

/-- No tag is taken for a number. -/
theorem misreads_eq_false (h : n.Agrees) (held : Option Key) : n.misreads held = false := by
  rw [← Bool.not_eq_true]
  intro misreads
  unfold Normalizer.misreads at misreads
  split at misreads
  · rename_i s
    rw [Bool.and_eq_true] at misreads
    have known : s ∈ n.settings.discriminatedKeys := by
      simpa [discriminates, Wire.isDiscriminated, Wire.isAmong] using misreads.1
    rw [h.words s known] at misreads
    exact absurd misreads.2 (by decide)
  · cases misreads

/-- What builtin types admit is let in by `a`, and the names of fields are, too. -/
structure LetsIn (n : Normalizer) (a : Admission) (admits : Primitive → Tree → Bool) : Prop where
  declared : ∀ p t, admits p t = true → a.leaf (some (.primitive p)) t
  unknown : ∀ t, admits .unknown t = true → a.leaf none t
  names : ∀ t ∈ n.graph.types, ∀ f ∈ t.fields, a.name f.name

/-- A value that is held under a discriminated key stands at a union that drops
its tag. -/
def IsHeldRightly (n : Normalizer) (held : Option Key) (type : Option TypeRef) : Prop :=
  ∀ k, held = some k → n.discriminates k = true → n.graph.dropsTagAt type = true

/-- What is read as a value of a type may be declared to be unknown. -/
def ReadsAs (type read : Option TypeRef) : Prop :=
  read = type ∨ type = some (.primitive .unknown) ∧ read = none

/-- At an object type nothing is left open. -/
theorem ReadsAs.eq_of_object {g : Graph} {type read : Option TypeRef} (reads : ReadsAs type read)
    (object : (g.objectAt? type).isSome = true) : read = type := by
  rcases reads with rfl | ⟨rfl, -⟩
  · rfl
  · cases object

theorem readsAs_item {type read item : Option TypeRef} (reads : ReadsAs type read)
    (listed : Graph.listedType type = item) (some_ : item ≠ none) :
    ReadsAs item (Graph.itemType read) := by
  subst listed
  unfold Graph.listedType at some_ ⊢
  split at some_
  · rcases reads with rfl | ⟨eq, -⟩
    · exact .inl rfl
    · cases eq
  · rcases reads with rfl | ⟨-, rfl⟩
    · exact .inr ⟨rfl, rfl⟩
    · exact .inr ⟨rfl, rfl⟩
  · exact absurd rfl some_

theorem isHeldRightly_item (n : Normalizer) (index : Nat) (type : Option TypeRef) :
    n.IsHeldRightly (some (.int index)) type := by
  rintro k ⟨⟩ discriminates
  cases discriminates

section WellTyped

variable (orderly : n.graph.IsOrderly) (agrees : n.Agrees) (lets : n.LetsIn a admits)

theorem canonicalItems_of_forall {type : Option TypeRef} {ts : List Tree} {index : Nat}
    (h : ∀ t ∈ ts, ∀ index : Nat, n.Canonical a (some (.int index)) type t) :
    n.CanonicalItems a type index ts := by
  induction ts generalizing index with
  | nil => trivial
  | cons t ts ih =>
    obtain ⟨here, there⟩ := List.forall_mem_cons.mp h
    exact ⟨here index, ih there⟩

include orderly agrees in
theorem fits_of_hasShape {held : Option Key} {type : Option TypeRef} {es : Entries}
    (shape : n.graph.HasShape type es)
    (declared : ∀ e ∈ es, (n.graph.fieldType type e.1).isSome = true)
    (rightly : n.IsHeldRightly held type) : n.Fits held type es := by
  refine ⟨shape.nonempty, shape.distinct, rightly, fun keeps => ?_, fun _ _ shown => ?_⟩
  · obtain ⟨k, inner, rfl⟩ := shape.variant keeps
    obtain ⟨o, s, f, object, rfl, mem, rfl, -⟩ := Graph.exists_field (declared _ List.mem_cons_self)
    have types := Graph.mem_types_of_objectAt? object
    have keepsTag : o.keepsTag = true := by simpa [Graph.keepsTagAt, object] using keeps
    obtain ⟨word, kept⟩ := agrees.variants o types keepsTag f mem
    exact ⟨f.name, inner, rfl, word, (orderly.plain o types f mem).2, kept⟩
  · obtain ⟨e, he, eq⟩ := List.mem_map.mp shown
    obtain ⟨o, s, f, object, name, mem, rfl, -⟩ := Graph.exists_field (declared e he)
    exact (orderly.plain o (Graph.mem_types_of_objectAt? object) f mem).2 (name.symm.trans eq)

include orderly agrees in
theorem isHeldRightly_inside {held : Option Key} {type : Option TypeRef} {k : Key}
    (declared : (n.graph.fieldType type k).isSome = true) :
    n.IsHeldRightly (n.heldInside held type k) (n.graph.fieldType type k) := by
  obtain ⟨o, s, f, object, rfl, mem, rfl, fieldType⟩ := Graph.exists_field declared
  have types := Graph.mem_types_of_objectAt? object
  intro k' eq discriminates
  by_cases keeps : n.graph.keepsTagAt type = true
  · rw [heldInside_variant keeps] at eq
    cases eq
  · rw [heldInside_of_shown (by simpa using keeps) (orderly.plain o types f mem).2] at eq
    cases eq
    rw [fieldType]
    exact agrees.discriminated o types f mem discriminates

include orderly agrees lets in
/-- Every well-typed value is canonical. -/
theorem canonical_of_wellTyped {t : Tree} {held : Option Key} {type read : Option TypeRef}
    (h : n.graph.WellTyped admits type t) (reads : ReadsAs type read)
    (rightly : n.IsHeldRightly held read) : n.Canonical a held read t := by
  induction t using Tree.induct generalizing held type read with
  | leaf t scalar =>
    obtain ⟨p, rfl, admitted⟩ := (Graph.wellTyped_leaf scalar).mp h
    have leaf : a.leaf read t := by
      rcases reads with rfl | ⟨eq, rfl⟩
      · exact lets.declared p t admitted
      · cases eq
        exact lets.unknown t admitted
    cases t with
    | list => cases scalar
    | map => cases scalar
    | _ => exact leaf
  | list ts ih =>
    obtain ⟨ne, items⟩ := h
    refine ⟨ne, canonicalItems_of_forall fun t ht index => ?_⟩
    have typed := Graph.itemsTyped_iff.mp items t ht
    refine ih t ht typed (readsAs_item reads rfl ?_) (isHeldRightly_item n index _)
    intro none
    rw [none] at typed
    exact Graph.not_wellTyped_none t typed
  | map es ih =>
    obtain ⟨shape, entries⟩ := h
    have typed := Graph.entriesTyped_iff.mp entries
    obtain rfl := reads.eq_of_object shape.object
    refine ⟨fits_of_hasShape orderly agrees shape (fun e he => (typed e he).1) rightly, ?_⟩
    rw [canonicalEntries_iff]
    intro e he
    obtain ⟨declared, typed⟩ := typed e he
    obtain ⟨o, s, f, object, name, mem, rfl, -⟩ := Graph.exists_field declared
    have types := Graph.mem_types_of_objectAt? object
    refine ⟨⟨f.name, name, (orderly.plain o types f mem).1, lets.names o types f mem⟩, ?_⟩
    exact ih e he typed (.inl rfl) (isHeldRightly_inside orderly agrees declared)

end WellTyped

end Normalizer

end DefinitionTree
