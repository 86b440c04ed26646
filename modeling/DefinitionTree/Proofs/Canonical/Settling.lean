/-
DefinitionTree/Proofs/Canonical/Settling.lean

What a canonical value settles to.

A canonical value that is completed, encoded and normalized again settles to
itself, but for three things.  The tag that an undeclared union shows comes
first; the fields that were put in stay if they hold anything; and the key of a
mapping that loses its tag to it must not read as a number, because the tag
would be wrapped, and a mapping is no tag.

`Normalizer.settle` says this as a recursion on the value.  For the entries of a
mapping, `Normalizer.wired` lists what is written and `Normalizer.settled` what
becomes of it.

Main definitions:

* `Normalizer.settle`: the outcome;
* `Normalizer.wired`, `Normalizer.settled`: the entries of a mapping as they are
  written, and as they come out.
-/
import DefinitionTree.Proofs.Canonical.Placeholder
import DefinitionTree.Proofs.Canonical.Value

namespace DefinitionTree

/-! ### Schemas -/

/-- What a schema has to be like for its values to come back: it has no fields
with a meaning of their own on the wire, and unions that keep their tag stand
neither at the root nor directly inside each other.  That the fields of a type
have different names is what building a schema ensures. -/
structure Graph.IsOrderly (g : Graph) : Prop where
  plain : ∀ t ∈ g.types, ∀ f ∈ t.fields, IsPlainName f.name ∧ Key.text f.name ≠ Wire.exposedKey
  distinct : ∀ t ∈ g.types, (t.fields.map (·.name)).Nodup
  root : g.keepsTagAt (some g.rootRef) = false
  variants : ∀ t ∈ g.types, t.keepsTag = true → ∀ f ∈ t.fields, g.keepsTagAt (some f.type) = false

instance (g : Graph) : Decidable g.IsOrderly :=
  decidable_of_iff
    ((∀ t ∈ g.types, ∀ f ∈ t.fields, IsPlainName f.name ∧ Key.text f.name ≠ Wire.exposedKey) ∧
      (∀ t ∈ g.types, (t.fields.map (·.name)).Nodup) ∧
      g.keepsTagAt (some g.rootRef) = false ∧
      ∀ t ∈ g.types, t.keepsTag = true → ∀ f ∈ t.fields, g.keepsTagAt (some f.type) = false)
    ⟨fun ⟨plain, distinct, root, variants⟩ => ⟨plain, distinct, root, variants⟩,
      fun ⟨plain, distinct, root, variants⟩ => ⟨plain, distinct, root, variants⟩⟩

namespace Graph.IsOrderly

variable {g : Graph} {type : Option TypeRef}

/-- The variant inside a union that keeps its tag is no such union itself. -/
theorem keepsTagAt_fieldType (h : g.IsOrderly) (keeps : g.keepsTagAt type = true) (k : Key) :
    g.keepsTagAt (g.fieldType type k) = false := by
  unfold fieldType
  rcases object : g.objectAt? type with - | t
  · rfl
  · cases k with
    | text name =>
      rcases field : t.field? name with - | f
      · simp [field, keepsTagAt, objectAt?]
      · have keepsTag : t.keepsTag = true := by simpa [keepsTagAt, object] using keeps
        simp only [field, Option.map_some]
        exact h.variants t (mem_types_of_objectAt? object) keepsTag f
          (List.mem_of_find?_eq_some field)
    | _ => rfl

end Graph.IsOrderly

namespace Normalizer

/-! ### The outcome -/

/-- A mapping that is held so gets a tag that is wrapped as a text. -/
def misreads (n : Normalizer) : Option Key → Bool
  | some (.text s) => n.discriminates (.text s) && Text.isNumberLike s
  | _ => false

/-- The fields that are put into a mapping. -/
def putBack (n : Normalizer) (type : Option TypeRef) (es : Entries) : List Field :=
  match n.graph.additionsOf type es with
  | .fields _ missing => missing
  | _ => []

/-- Entries of a mapping that is held so, in the order in which they come out. -/
def arranged {α : Type} (n : Normalizer) (held : Option Key) (xs : List (Key × α)) :
    List (Key × α) :=
  if n.showsTag held then toFront Wire.exposedKey xs else xs

mutual

/-- What a canonical value settles to; `restore` says what the fields that are put
in come back as. -/
def settle (n : Normalizer) (restore : Field → Tree) (held : Option Key)
    (type : Option TypeRef) : Tree → Except Failure Tree
  | .list ts => .list <$> collectItems (n.settleItems restore (Graph.itemType type) 0 ts)
  | .map es =>
    if n.misreads held then .error .compoundTag
    else .map <$> collect (n.arranged held
      (n.settleEntries restore (n.heldInside held type) type es
        ++ (n.putBack type es).map fun f => (.text f.name, .ok (restore f))))
  | t => .ok t

/-- What the items of a list settle to, from an index on. -/
def settleItems (n : Normalizer) (restore : Field → Tree) (type : Option TypeRef) (index : Nat) :
    List Tree → List (Except Failure Tree)
  | [] => []
  | t :: rest =>
    n.settle restore (some (.int index)) type t :: n.settleItems restore type (index + 1) rest

/-- What the values of a mapping settle to, under their keys. -/
def settleEntries (n : Normalizer) (restore : Field → Tree) (heldAt : Key → Option Key)
    (type : Option TypeRef) : Entries → List (Key × Except Failure Tree)
  | [] => []
  | (k, t) :: rest =>
    (k, n.settle restore (heldAt k) (n.graph.fieldType type k) t)
      :: n.settleEntries restore heldAt type rest

end

variable {n : Normalizer} {a : Admission} {restore : Field → Tree} {held : Option Key}
  {type : Option TypeRef}

theorem arranged_perm {α : Type} (held : Option Key) (xs : List (Key × α)) :
    (n.arranged held xs).Perm xs := by
  rw [arranged]
  split
  · exact toFront_perm Wire.exposedKey xs
  · exact .refl xs

theorem arranged_map {α β : Type} (f : α → β) (held : Option Key) (xs : List (Key × α)) :
    n.arranged held (xs.map fun x => (x.1, f x.2))
      = (n.arranged held xs).map fun x => (x.1, f x.2) := by
  unfold arranged
  split
  · exact toFront_map f Wire.exposedKey xs
  · rfl

theorem settleEntries_eq_map (heldAt : Key → Option Key) (es : Entries) :
    n.settleEntries restore heldAt type es
      = es.map fun e => (e.1, n.settle restore (heldAt e.1) (n.graph.fieldType type e.1) e.2) := by
  induction es with
  | nil => rfl
  | cons e es ih =>
    obtain ⟨k, t⟩ := e
    rw [settleEntries, ih, List.map_cons]

theorem settle_of_isScalar {t : Tree} (h : t.IsScalar) : n.settle restore held type t = .ok t := by
  cases t with
  | list => exact h.elim
  | map => exact h.elim
  | _ => rfl

theorem ne_null_of_canonical {t : Tree} (h : n.Canonical a held type t) : t ≠ .null := by
  rintro rfl
  exact a.isScalar h

/-! ### What is written -/

/-- A completed value in the form in which it is written where it is held so. -/
def wireOf (n : Normalizer) : Option Key → Tree → Tree
  | some k, t => Wire.encodeAt n.settings.discriminatedKeys true k t
  | none, t => Wire.encode n.settings.discriminatedKeys t

/-- The entries of a completed mapping. -/
def full (n : Normalizer) (type : Option TypeRef) (es : Entries) : Entries :=
  es.map (fun e => (e.1, n.graph.completed (n.graph.fieldType type e.1) e.2))
    ++ (n.putBack type es).map fun f => (.text f.name, (n.graph.fieldPlaceholder f).value)

/-- The entries of a completed mapping as they are written.  A tag, which may come
on top of them, is not among them. -/
def wired (n : Normalizer) (held : Option Key) (type : Option TypeRef) (es : Entries) : Entries :=
  (n.full type es).map fun e => (e.1, n.wireOf (n.heldInside held type e.1) e.2)

/-- What becomes of these entries. -/
def settled (n : Normalizer) (restore : Field → Tree) (held : Option Key) (type : Option TypeRef)
    (es : Entries) : List (Key × Except Failure Tree) :=
  n.settleEntries restore (n.heldInside held type) type es
    ++ (n.putBack type es).map fun f => (.text f.name, .ok (restore f))

variable {es : Entries}

/-! ### Completed mappings -/

/-- The field is put back into the value that lacks it. -/
theorem putsBack_of_mem {f : Field} (h : f ∈ n.putBack type es) :
    ∃ t, n.graph.PutsBack type t f := by
  unfold putBack at h
  split at h
  · rename_i owner missing lacks
    obtain ⟨t, -, back⟩ := Graph.putsBack_of_additionsOf lacks
    exact ⟨t, back f h⟩
  · cases h

/-- The fields that are put in are different ones, and not there already. -/
theorem putBack_new (orderly : n.graph.IsOrderly) (distinct : (keysOf es).Nodup) :
    (keysOf es ++ (n.putBack type es).map fun f => Key.text f.name).Nodup := by
  unfold putBack
  split
  · rename_i owner missing lacks
    unfold Graph.additionsOf at lacks
    split at lacks
    · cases lacks
    · rename_i t object
      have missing_eq : missing = t.missing es := by
        rcases t.additions_cases es with ⟨-, eq⟩ | ⟨-, -, k, u, -, eq⟩ | ⟨-, -, eq⟩ <;>
          rw [eq] at lacks <;> cases lacks
        rfl
      subst missing_eq
      obtain ⟨names, new⟩ :=
        t.missing_new es (orderly.distinct t (Graph.mem_types_of_objectAt? object))
      refine List.nodup_append.mpr ⟨distinct, names, ?_⟩
      rintro k hk _ hmap rfl
      obtain ⟨f, hf, rfl⟩ := List.mem_map.mp hmap
      exact new f hf hk
  · simpa using distinct

theorem keysOf_full : keysOf (n.full type es)
    = keysOf es ++ (n.putBack type es).map fun f => Key.text f.name := by
  simp [full, keysOf, List.map_map, Function.comp_def]

/-- The entries are written under the keys that they have with the fields put in. -/
theorem keysOf_wired : keysOf (n.wired held type es) = keysOf (n.full type es) := by
  simp [wired, keysOf, Function.comp_def]

/-- The entries of a completed mapping have distinct and plain keys. -/
theorem isPlain_full (orderly : n.graph.IsOrderly) (fits : n.Fits held type es)
    (h : n.CanonicalEntries a (n.heldInside held type) type es) :
    Wire.IsPlain (n.full type es) := by
  refine ⟨?_, fun k hk => ?_⟩
  · rw [keysOf_full]
    exact putBack_new orderly fits.distinct
  · rw [keysOf_full, List.mem_append] at hk
    rcases hk with hk | hk
    · obtain ⟨e, he, rfl⟩ := List.mem_map.mp hk
      obtain ⟨⟨s, eq, plain, -⟩, -⟩ := canonicalEntries_iff.mp h e he
      exact ⟨s, eq, plain⟩
    · obtain ⟨f, hf, rfl⟩ := List.mem_map.mp hk
      obtain ⟨t, back⟩ := putsBack_of_mem hf
      exact ⟨f.name, rfl,
        (orderly.plain t (Graph.mem_types_of_objectAt? back.object) f back.mem).1⟩

/-- Where no variant is marked, the completed mapping has the full entries. -/
theorem completed_map {heldAt : Key → Option Key} (h : n.CanonicalEntries a heldAt type es)
    (fields : ∀ f ∈ n.putBack type es, (n.graph.fieldPlaceholder f).value ≠ .null)
    (keeps : n.graph.keepsTagAt type = false) :
    n.graph.completed type (.map es) = .map (n.full type es) := by
  have values : ∀ e ∈ es, e.2 ≠ .null := fun e he =>
    ne_null_of_canonical (canonicalEntries_iff.mp h e he).2
  unfold full
  rw [← Graph.completedEntries_eq_map values, ← Graph.placeholders_eq_map fields, Graph.completed,
    putBack]
  rcases lacks : n.graph.additionsOf type es with - | k | ⟨owner, missing⟩
  · simp [Graph.placeholders]
  · unfold Graph.additionsOf at lacks
    rcases object : n.graph.objectAt? type with - | t
    · rw [object] at lacks
      cases lacks
    · have keepsTag : t.keepsTag = false := by simpa [Graph.keepsTagAt, object] using keeps
      rw [object] at lacks
      simp only [ObjectType.additions, keepsTag] at lacks
      split at lacks <;> cases lacks
  · rfl

/-- A single variant is marked with its name. -/
theorem completed_variant {s : String} {inner : Entries}
    (keeps : n.graph.keepsTagAt type = true) (plain : IsPlainName s) :
    n.graph.completed type (.map [(.text s, .map inner)])
        = .map [(.text s, n.graph.completed (n.graph.fieldType type (.text s)) (.map inner)),
            (Wire.tagKey, .text s)]
      ∧ n.putBack type [(.text s, .map inner)] = [] := by
  have noTag : (Key.text s).same Wire.tagKey = false := by
    rw [← Bool.not_eq_true, Wire.tagKey, Key.text_same_iff]
    simpa using plain.noTag.symm
  have marks : n.graph.additionsOf type [(.text s, .map inner)] = .variantMark (.text s) := by
    rcases object : n.graph.objectAt? type with - | t
    · simp [Graph.keepsTagAt, object] at keeps
    · have keepsTag : t.keepsTag = true := by simpa [Graph.keepsTagAt, object] using keeps
      have untyped : Entries.has Wire.typeKey [(Key.text s, Tree.map inner)] = false := by
        rw [Wire.typeKey, Entries.has_eq_false_iff]
        simpa using (Wire.isPlainName_ne_typeKey plain).symm
      simp only [Graph.additionsOf, object, ObjectType.additions, untyped, keepsTag]
      rfl
  have values : ∀ e ∈ [(Key.text s, Tree.map inner)], e.2 ≠ .null := by simp
  constructor
  · rw [Graph.completed, marks]
    simp only [noTag, Graph.completedEntries_eq_map values]
    rfl
  · rw [putBack, marks]

/-- A mapping with entries is written as one. -/
theorem full_ne_nil (h : es ≠ []) : n.full type es ≠ [] := by
  simpa [full] using fun e => absurd e h

/-! ### How values inside are held -/

theorem heldInside_of_shown {k : Key} (keeps : n.graph.keepsTagAt type = false)
    (h : k ≠ Wire.exposedKey) : n.heldInside held type k = some k := by
  simp [heldInside, keeps, h]

theorem heldInside_of_hidden {k : Key} (keeps : n.graph.keepsTagAt type = false)
    (h : n.showsTag held = false) : n.heldInside held type k = some k := by
  simp [heldInside, keeps, h]

/-- Inside a union that keeps its tag nothing is held. -/
theorem heldInside_variant {k : Key} (keeps : n.graph.keepsTagAt type = true) :
    n.heldInside held type k = none := by
  simp [heldInside, keeps]

/-- Where nothing is renamed every entry is written in place. -/
theorem wired_eq_map (keeps : n.graph.keepsTagAt type = false)
    (h : n.showsTag held = false ∨ Wire.exposedKey ∉ keysOf (n.full type es)) :
    n.wired held type es
      = (n.full type es).map (Wire.encodeEntry n.settings.discriminatedKeys) := by
  refine List.map_congr_left fun e he => ?_
  have held : n.heldInside held type e.1 = some e.1 := by
    rcases h with h | h
    · exact heldInside_of_hidden keeps h
    · refine heldInside_of_shown keeps ?_
      rintro eq
      exact h (eq ▸ mem_keysOf he)
  rw [held]
  rfl

end Normalizer

end DefinitionTree
