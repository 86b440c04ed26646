/-
DefinitionTree/Proofs/Canonical/Value.lean

Canonical values, as a predicate on trees.

A canonical value holds scalars, non-empty lists and non-empty mappings.  Which
scalars and which keys may stand in it is left open (`Admission`), since this
differs with what carries the value.  What is required of a mapping depends on
its type and on how it is held: under a key, as an item of a list, or free, as
the root of a definition and the variant inside a union are.

Main definitions:

* `Admission`: the scalars and keys that are let in;
* `Normalizer.Fits`: what is required of one mapping;
* `Normalizer.Canonical`: the canonical values of a type.
-/
import DefinitionTree.Proofs.Canonical.Decoding
import DefinitionTree.Proofs.Tree.Induction
import DefinitionTree.Proofs.Wire.Encoding

namespace DefinitionTree

/-! ### Scalars and keys -/

/-- A text, a number or a truth value. -/
def Tree.IsScalar : Tree → Prop
  | .bool _ => True
  | .int _ => True
  | .float _ => True
  | .text _ => True
  | _ => False

/-- Which scalars may stand where a type is declared, and which texts may be
keys. -/
structure Admission where
  leaf : Option TypeRef → Tree → Prop
  name : String → Prop
  isScalar : ∀ {type t}, leaf type t → t.IsScalar

/-! ### Types of unions -/

namespace Graph

/-- The declared type is a union that keeps its tag. -/
def keepsTagAt (g : Graph) (type : Option TypeRef) : Bool :=
  (g.objectAt? type).any (·.keepsTag)

/-- The declared type is a union that drops its tag. -/
def dropsTagAt (g : Graph) (type : Option TypeRef) : Bool :=
  (g.objectAt? type).any fun t => t.isUnion && t.ignoresTag

end Graph

namespace Normalizer

/-! ### How a value is held

A value is held under a key, the index in the case of an item, or it is free. -/

/-- The values of this key get the key back as their tag. -/
def discriminates (n : Normalizer) (k : Key) : Bool :=
  Wire.isDiscriminated n.settings.discriminatedKeys k

/-- A mapping that is held so shows itself whether it is a union. -/
def showsTag (n : Normalizer) : Option Key → Bool
  | none => false
  | some k => !n.discriminates k

/-- How the value of a key is held inside a mapping, where it is encoded. -/
def heldInside (n : Normalizer) (held : Option Key) (type : Option TypeRef) (k : Key) :
    Option Key :=
  if n.graph.keepsTagAt type then none
  else if n.showsTag held && k = Wire.exposedKey then some Wire.tagKey
  else some k

/-! ### Canonical values -/

/-- What is required of one mapping. -/
structure Fits (n : Normalizer) (held : Option Key) (type : Option TypeRef) (es : Entries) :
    Prop where
  nonempty : es ≠ []
  distinct : (keysOf es).Nodup
  /-- what loses its tag to the key must not keep one of its own -/
  discriminated : ∀ k, held = some k → n.discriminates k = true → n.graph.dropsTagAt type = true
  /-- a union that keeps its tag holds a single variant under it -/
  variant : n.graph.keepsTagAt type = true → ∃ s inner, es = [(.text s, .map inner)] ∧
    Text.isNumberLike s = false ∧ Key.text s ≠ Wire.exposedKey ∧ s ∉ n.settings.ignoredTags
  /-- a union that drops its tag must not show one -/
  exposed : n.graph.dropsTagAt type = true → n.showsTag held = true → Wire.exposedKey ∉ keysOf es

mutual

/-- The canonical values of a type, held so. -/
def Canonical (n : Normalizer) (a : Admission) (held : Option Key) (type : Option TypeRef) :
    Tree → Prop
  | .list ts => ts ≠ [] ∧ n.CanonicalItems a (Graph.itemType type) 0 ts
  | .map es => n.Fits held type es ∧ n.CanonicalEntries a (n.heldInside held type) type es
  | t => a.leaf type t

/-- The items of a list are canonical, from an index on. -/
def CanonicalItems (n : Normalizer) (a : Admission) (type : Option TypeRef) (index : Nat) :
    List Tree → Prop
  | [] => True
  | t :: rest =>
    n.Canonical a (some (.int index)) type t ∧ n.CanonicalItems a type (index + 1) rest

/-- The entries of a mapping have plain keys and canonical values. -/
def CanonicalEntries (n : Normalizer) (a : Admission) (heldAt : Key → Option Key)
    (type : Option TypeRef) : Entries → Prop
  | [] => True
  | (k, t) :: rest =>
    (∃ s, k = .text s ∧ IsPlainName s ∧ a.name s) ∧
      n.Canonical a (heldAt k) (n.graph.fieldType type k) t ∧
      n.CanonicalEntries a heldAt type rest

end

variable {n : Normalizer} {a : Admission} {held : Option Key} {type : Option TypeRef}

theorem canonicalEntries_iff {heldAt : Key → Option Key} {es : Entries} :
    n.CanonicalEntries a heldAt type es ↔
      ∀ e ∈ es, (∃ s, e.1 = .text s ∧ IsPlainName s ∧ a.name s) ∧
        n.Canonical a (heldAt e.1) (n.graph.fieldType type e.1) e.2 := by
  induction es with
  | nil => simp [CanonicalEntries]
  | cons e es ih =>
    obtain ⟨k, t⟩ := e
    rw [CanonicalEntries, ih, List.forall_mem_cons, and_assoc]

/-! ### Deciding -/

/-- The name of the variant that a mapping holds as its only entry. -/
def variantOf? : Entries → Option String
  | [(.text s, .map _)] => some s
  | _ => none

theorem variantOf?_eq_some_iff {es : Entries} {s : String} :
    variantOf? es = some s ↔ ∃ inner, es = [(.text s, .map inner)] := by
  constructor
  · intro h
    unfold variantOf? at h
    split at h
    · rename_i s' inner
      cases h
      exact ⟨inner, rfl⟩
    · cases h
  · rintro ⟨inner, rfl⟩
    rfl

instance (n : Normalizer) (held : Option Key) (type : Option TypeRef) (es : Entries) :
    Decidable (n.Fits held type es) :=
  decidable_of_iff
    (es.isEmpty = false ∧ (keysOf es).Nodup ∧
      (∀ k ∈ held, n.discriminates k = true → n.graph.dropsTagAt type = true) ∧
      (n.graph.keepsTagAt type = true → ∃ s ∈ variantOf? es,
        Text.isNumberLike s = false ∧ Key.text s ≠ Wire.exposedKey ∧
          s ∉ n.settings.ignoredTags) ∧
      (n.graph.dropsTagAt type = true → n.showsTag held = true →
        Wire.exposedKey ∉ keysOf es)) <| by
    constructor
    · rintro ⟨nonempty, distinct, discriminated, variant, exposed⟩
      refine ⟨by simpa using nonempty, distinct, discriminated, fun keeps => ?_, exposed⟩
      obtain ⟨s, found, rules⟩ := variant keeps
      obtain ⟨inner, eq⟩ := variantOf?_eq_some_iff.mp found
      exact ⟨s, inner, eq, rules⟩
    · rintro ⟨nonempty, distinct, discriminated, variant, exposed⟩
      refine ⟨by simpa using nonempty, distinct, discriminated, fun keeps => ?_, exposed⟩
      obtain ⟨s, inner, eq, rules⟩ := variant keeps
      exact ⟨s, variantOf?_eq_some_iff.mpr ⟨inner, eq⟩, rules⟩

mutual

/-- Whether a value is canonical can be decided, as far as it can be decided what
is let in. -/
def decideCanonical (n : Normalizer) (a : Admission)
    (leaf : ∀ type t, Decidable (a.leaf type t)) (name : ∀ s, Decidable (a.name s)) :
    (held : Option Key) → (type : Option TypeRef) → (t : Tree) →
      Decidable (n.Canonical a held type t)
  | _, type, .list ts =>
    have := decideItems n a leaf name (Graph.itemType type) 0 ts
    decidable_of_iff (ts.isEmpty = false ∧ n.CanonicalItems a (Graph.itemType type) 0 ts)
      (by rw [Canonical, List.isEmpty_eq_false_iff])
  | held, type, .map es =>
    have := decideEntries n a leaf name (n.heldInside held type) type es
    inferInstanceAs (Decidable (_ ∧ _))
  | _, type, .null => leaf type .null
  | _, type, .bool b => leaf type (.bool b)
  | _, type, .int i => leaf type (.int i)
  | _, type, .float x => leaf type (.float x)
  | _, type, .text s => leaf type (.text s)
  | _, type, .ref id target => leaf type (.ref id target)

/-- Whether the items of a list are canonical can be decided. -/
def decideItems (n : Normalizer) (a : Admission)
    (leaf : ∀ type t, Decidable (a.leaf type t)) (name : ∀ s, Decidable (a.name s)) :
    (type : Option TypeRef) → (index : Nat) → (ts : List Tree) →
      Decidable (n.CanonicalItems a type index ts)
  | _, _, [] => isTrue trivial
  | type, index, t :: rest =>
    have := decideCanonical n a leaf name (some (.int index)) type t
    have := decideItems n a leaf name type (index + 1) rest
    inferInstanceAs (Decidable (_ ∧ _))

/-- Whether the entries of a mapping are canonical can be decided. -/
def decideEntries (n : Normalizer) (a : Admission)
    (leaf : ∀ type t, Decidable (a.leaf type t)) (name : ∀ s, Decidable (a.name s)) :
    (heldAt : Key → Option Key) → (type : Option TypeRef) → (es : Entries) →
      Decidable (n.CanonicalEntries a heldAt type es)
  | _, _, [] => isTrue trivial
  | heldAt, type, (k, t) :: rest =>
    have := decideCanonical n a leaf name (heldAt k) (n.graph.fieldType type k) t
    have := decideEntries n a leaf name heldAt type rest
    have : Decidable (∃ s, k = .text s ∧ IsPlainName s ∧ a.name s) :=
      match k with
      | .text s => decidable_of_iff (IsPlainName s ∧ a.name s)
          ⟨fun h => ⟨s, rfl, h⟩, fun ⟨_, eq, h⟩ => by cases eq; exact h⟩
      | .null => isFalse fun ⟨_, eq, _⟩ => nomatch eq
      | .bool _ => isFalse fun ⟨_, eq, _⟩ => nomatch eq
      | .int _ => isFalse fun ⟨_, eq, _⟩ => nomatch eq
      | .float _ => isFalse fun ⟨_, eq, _⟩ => nomatch eq
      | .ref _ => isFalse fun ⟨_, eq, _⟩ => nomatch eq
    inferInstanceAs (Decidable (_ ∧ _ ∧ _))

end

instance (n : Normalizer) (a : Admission) [leaf : ∀ type t, Decidable (a.leaf type t)]
    [name : ∀ s, Decidable (a.name s)] (held : Option Key) (type : Option TypeRef) (t : Tree) :
    Decidable (n.Canonical a held type t) :=
  decideCanonical n a leaf name held type t

/-- What is neither a list nor a mapping is canonical if it is let in. -/
theorem canonical_leaf {t : Tree} (scalar : t.key?.isSome = true)
    (h : n.Canonical a held type t) : a.leaf type t := by
  cases t with
  | list => cases scalar
  | map => cases scalar
  | _ => exact h

/-- A tag that a union keeps is kept when it is read. -/
theorem not_isAmong {s : String} {names : List String} (h : s ∉ names) :
    Wire.isAmong (.text s) names = false := by
  simpa [Wire.isAmong] using h

/-! ### Types of unions -/

theorem atUnion_of_keepsTagAt (h : n.graph.keepsTagAt type = true) : n.AtUnion type := by
  rcases object : n.graph.objectAt? type with - | t
  · simp [Graph.keepsTagAt, object] at h
  · simp only [Graph.keepsTagAt, object, Option.any_some, ObjectType.keepsTag,
      Bool.and_eq_true] at h
    simpa [AtUnion, object] using h.1

theorem atUnion_of_dropsTagAt (h : n.graph.dropsTagAt type = true) : n.AtUnion type := by
  rcases object : n.graph.objectAt? type with - | t
  · simp [Graph.dropsTagAt, object] at h
  · simp only [Graph.dropsTagAt, object, Option.any_some, Bool.and_eq_true] at h
    simpa [AtUnion, object] using h.1

/-- A union either keeps its tag or drops it. -/
theorem keepsTagAt_or_dropsTagAt (h : n.AtUnion type) :
    n.graph.keepsTagAt type = true ∨ n.graph.dropsTagAt type = true := by
  rcases object : n.graph.objectAt? type with - | t
  · simp [AtUnion, object] at h
  · simp only [AtUnion, object, Option.any_some] at h
    cases ignores : t.ignoresTag <;>
      simp [Graph.keepsTagAt, Graph.dropsTagAt, ObjectType.keepsTag, object, h, ignores]

theorem keepsTagAt_eq_false (h : n.graph.dropsTagAt type = true) :
    n.graph.keepsTagAt type = false := by
  rcases object : n.graph.objectAt? type with - | t
  · simp [Graph.keepsTagAt, object]
  · simp only [Graph.dropsTagAt, object, Option.any_some, Bool.and_eq_true] at h
    simp [Graph.keepsTagAt, object, ObjectType.keepsTag, h.2]

end Normalizer

end DefinitionTree
