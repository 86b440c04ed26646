/-
DefinitionTree/Proofs/Canonical/Entry.lean

Entries of mappings that are completed and encoded.

Completing a mapping leaves out its absent values, and puts the fields that it
lacks behind the others.  Encoding goes through the entries that are there.  So
what becomes of an entry is found under its own key, and what is found under a
key that was not there is the placeholder of a field.

Main statements:

* `Graph.completed_object`, `Graph.completed_root`: objects, completed;
* `Graph.get?_completedEntries`, `Graph.get?_putIn`: what is found in them;
* `Graph.completed_variant`: unions with a single variant, completed;
* `Wire.get?_encodeEntries`: what is found in an encoded mapping.
-/
import DefinitionTree.Proofs.Canonical.Placeholder
import DefinitionTree.Proofs.Canonical.Settling
import DefinitionTree.Proofs.Wire.Encoding

namespace DefinitionTree

namespace Graph

variable {g : Graph} {type : Option TypeRef} {es : Entries} {s : String} {t : Tree}

/-! ### Entries that were there -/

/-- Completing adds no keys to the entries that are there. -/
theorem keysOf_completedEntries (g : Graph) (type : Option TypeRef) (es : Entries) :
    (keysOf (g.completedEntries type es)).Sublist (keysOf es) := by
  induction es with
  | nil => exact .refl _
  | cons e es ih =>
    obtain ⟨k, t⟩ := e
    rw [completedEntries]
    by_cases none : g.completed (g.fieldType type k) t = .null
    · rw [none]
      exact ih.cons k
    · rw [kept_eq_cons none]
      exact ih.cons_cons k

theorem get?_completedEntries (g : Graph) (type : Option TypeRef)
    (found : Entries.get? (.text s) es = some t) (some_ : t ≠ .null) :
    Entries.get? (.text s) (g.completedEntries type es)
      = some (g.completed (g.fieldType type (.text s)) t) := by
  induction es with
  | nil => cases found
  | cons e es ih =>
    obtain ⟨k, u⟩ := e
    rw [completedEntries]
    by_cases here : k = .text s
    · subst here
      rw [Entries.get?_cons_self] at found
      cases found
      rw [kept_eq_cons (completed_ne_null some_), Entries.get?_cons_self]
    · rw [Entries.get?_cons_of_ne here] at found
      by_cases none : g.completed (g.fieldType type k) u = .null
      · rw [none]
        exact ih found
      · rw [kept_eq_cons none, Entries.get?_cons_of_ne here]
        exact ih found

/-- Nothing of a null stays in the completed form. -/
theorem notMem_completedEntries (distinct : (keysOf es).Nodup)
    (found : Entries.get? (.text s) es = some .null) :
    Key.text s ∉ keysOf (g.completedEntries type es) := by
  induction es with
  | nil => cases found
  | cons e es ih =>
    obtain ⟨k, t⟩ := e
    obtain ⟨fresh, distinct_⟩ := List.nodup_cons.mp distinct
    rw [completedEntries]
    by_cases here : k = .text s
    · subst here
      rw [Entries.get?_cons_self] at found
      cases found
      exact fun mem => fresh ((keysOf_completedEntries g type es).subset mem)
    · rw [Entries.get?_cons_of_ne here] at found
      have rest := ih distinct_ found
      by_cases none : g.completed (g.fieldType type k) t = .null
      · rw [none]
        exact rest
      · rw [kept_eq_cons none, keysOf_cons, List.mem_cons, not_or]
        exact ⟨fun same => here same.symm, rest⟩

/-! ### Objects -/

/-- The fields that are put in, with their placeholders. -/
def putIn (g : Graph) (missing : List Field) : Entries :=
  missing.map fun f => (.text f.name, (g.fieldPlaceholder f).value)

theorem keysOf_putIn (g : Graph) (missing : List Field) :
    keysOf (g.putIn missing) = missing.map fun f => Key.text f.name := by
  rw [keysOf, putIn, List.map_map]
  rfl

variable {object : ObjectType} {missing : List Field} {f : Field}

/-- An object keeps its entries and gets the fields that it lacks. -/
theorem completed_object (flat : g.HasFlatDefaults) (declared : g.objectAt? type = some object)
    (keeps : object.keepsTag = false) (untyped : Wire.typeKey ∉ keysOf es) :
    g.completed type (.map es)
      = .map (g.completedEntries type es ++ g.putIn (object.missing es)) := by
  have lacks : g.additionsOf type es = .fields object.name (object.missing es) := by
    rw [additionsOf, declared]
    rcases object.additions_cases es with ⟨typed, -⟩ | ⟨-, union, -⟩ | ⟨-, -, eq⟩
    · exact absurd (Entries.has_iff.mp typed) untyped
    · rw [keeps] at union
      cases union
    · exact eq
  obtain ⟨object', -, back⟩ := putsBack_of_additionsOf lacks
  have some_ : ∀ f ∈ object.missing es, (g.fieldPlaceholder f).value ≠ .null :=
    fun f hf => fieldPlaceholderIn_ne_null flat (back f hf) g.typeNames
  rw [completed, lacks]
  show Tree.map (_ ++ g.placeholders _) = _
  rw [placeholders_eq_map some_]
  rfl

/-- What is put into a value whose type is no union that keeps its tag. -/
theorem exists_putIn (orderly : g.IsOrderly) (flat : g.HasFlatDefaults)
    (keeps : g.keepsTagAt type = false) (untyped : Wire.typeKey ∉ keysOf es) :
    ∃ missing, g.completed type (.map es) = .map (g.completedEntries type es ++ g.putIn missing) ∧
      (∀ f ∈ missing, (∃ object, g.PutsBack type object f) ∧ Key.text f.name ∉ keysOf es) ∧
      (missing.map fun f => Key.text f.name).Nodup := by
  rcases declared : g.objectAt? type with - | object
  · refine ⟨[], ?_, by simp, .nil⟩
    have lacks : g.additionsOf type es = .nothing := by rw [additionsOf, declared]
    rw [completed, lacks]
    exact congrArg Tree.map (List.append_nil _).symm
  · have keeps_ : object.keepsTag = false := by simpa [keepsTagAt, declared] using keeps
    obtain ⟨distinct, fresh⟩ :=
      object.missing_new es (orderly.distinct object (mem_types_of_objectAt? declared))
    refine ⟨object.missing es, completed_object flat declared keeps_ untyped, fun f hf => ?_, distinct⟩
    obtain ⟨mem, lacks⟩ := List.mem_filter.mp hf
    rw [Bool.and_eq_true, Bool.not_eq_true', Bool.not_eq_true'] at lacks
    exact ⟨⟨object, declared, mem, lacks.2⟩, fresh f hf⟩

/-- The fields are those of objects that the schema declares. -/
def AreDeclared (g : Graph) (missing : List Field) : Prop :=
  ∀ f ∈ missing, ∃ object ∈ g.types, f ∈ object.fields

theorem areDeclared_missing (declared : object ∈ g.types) (es : Entries) :
    g.AreDeclared (object.missing es) :=
  fun _ hf => ⟨object, declared, List.mem_of_mem_filter hf⟩

theorem areDeclared_of_putsBack (back : ∀ f ∈ missing, ∃ object, g.PutsBack type object f) :
    g.AreDeclared missing :=
  fun f hf => (back f hf).imp fun _ back => ⟨mem_types_of_objectAt? back.object, back.mem⟩

/-- Completing puts in no key that has a meaning of its own. -/
theorem notMem_completed (orderly : g.IsOrderly) (declared : g.AreDeclared missing)
    (special : ¬IsPlainName s) (lacks : Key.text s ∉ keysOf es) :
    Key.text s ∉ keysOf (g.completedEntries type es ++ g.putIn missing) := by
  rw [keysOf_append, List.mem_append, not_or, keysOf_putIn]
  refine ⟨fun there => lacks ((keysOf_completedEntries g type es).subset there), fun put => ?_⟩
  obtain ⟨f, hf, same⟩ := List.mem_map.mp put
  obtain ⟨object, known, mem⟩ := declared f hf
  exact special (Key.text.inj same ▸ (orderly.plain object known f mem).1)

/-- The root of a definition is such an object. -/
theorem completed_root (orderly : g.IsOrderly) (flat : g.HasFlatDefaults)
    (untyped : Wire.typeKey ∉ keysOf es) :
    g.completed (some g.rootRef) (.map es)
      = .map (g.completedEntries (some g.rootRef) es ++ g.putIn (g.root.missing es)) := by
  have declared : g.objectAt? (some g.rootRef) = some g.root := by
    show g.type? g.root.name = some g.root
    rw [type?, types, List.find?_cons_of_pos (by simp)]
  have keeps : g.root.keepsTag = false := by simpa [keepsTagAt, declared] using orderly.root
  exact completed_object flat declared keeps untyped

/-- A field that an object lacks is found in its place. -/
theorem get?_putIn (type : Option TypeRef) (orderly : g.IsOrderly) (declared : object ∈ g.types)
    (mem : f ∈ object.missing es) :
    Entries.get? (.text f.name) (g.completedEntries type es ++ g.putIn (object.missing es))
      = some (g.fieldPlaceholder f).value := by
  obtain ⟨distinct, fresh⟩ := object.missing_new es (orderly.distinct object declared)
  have front : Key.text f.name ∉ keysOf (g.completedEntries type es) :=
    fun there => fresh f mem ((keysOf_completedEntries g type es).subset there)
  have behind : Entries.get? (.text f.name) (g.putIn (object.missing es))
      = some (g.fieldPlaceholder f).value :=
    Entries.get?_of_mem (by rwa [keysOf_putIn]) (List.mem_map_of_mem mem)
  rw [← behind]
  exact Entries.get?_append_of_notMem front _

/-- A null is not put back. -/
theorem notMem_of_null (type : Option TypeRef) (orderly : g.IsOrderly) (declared : object ∈ g.types)
    (distinct : (keysOf es).Nodup) (null : Entries.get? (.text s) es = some .null) :
    Key.text s ∉ keysOf (g.completedEntries type es ++ g.putIn (object.missing es)) := by
  rw [keysOf_append, List.mem_append, not_or, keysOf_putIn]
  refine ⟨notMem_completedEntries distinct null, fun put => ?_⟩
  obtain ⟨f, hf, same⟩ := List.mem_map.mp put
  have there : Key.text s ∈ keysOf es := mem_keysOf (Entries.mem_of_get? null)
  exact (object.missing_new es (orderly.distinct object declared)).2 f hf (same ▸ there)

/-! ### Unions with a single variant -/

/-- The mapping with a variant that it is called after gets that mark. -/
theorem completed_variant (declared : g.objectAt? type = some object)
    (keeps : object.keepsTag = true) (noType : Key.text s ≠ Wire.typeKey)
    (noTag : Key.text s ≠ Wire.tagKey) (some_ : t ≠ .null) :
    g.completed type (.map [(.text s, t)])
      = .map [(.text s, g.completed (g.fieldType type (.text s)) t), (Wire.tagKey, .text s)] := by
  have lacks : g.additionsOf type [(.text s, t)] = .variantMark (.text s) := by
    rw [additionsOf, declared]
    rcases object.additions_cases [(.text s, t)] with ⟨typed, -⟩ | ⟨-, -, k, u, eq, mark⟩ |
      ⟨-, single, -⟩
    · exact absurd (List.mem_singleton.mp (Entries.has_iff.mp typed)).symm noType
    · cases eq
      exact mark
    · exact absurd rfl (single keeps)
  have other : (Key.text s).same Wire.tagKey = false := by
    rw [← Bool.not_eq_true, Wire.tagKey, Key.same_text_iff]
    exact noTag
  rw [completed, lacks]
  simp only [other]
  rw [completedEntries, completedEntries, kept_eq_cons (completed_ne_null some_)]
  rfl

/-- A single variant called `_T_` gives way to the mark, which is its own name. -/
theorem completed_tagVariant (declared : g.objectAt? type = some object)
    (keeps : object.keepsTag = true) (t : Tree) :
    g.completed type (.map [(Wire.tagKey, t)]) = .map [(Wire.tagKey, .text "_T_")] := by
  have lacks : g.additionsOf type [(Wire.tagKey, t)] = .variantMark Wire.tagKey := by
    rw [additionsOf, declared]
    rcases object.additions_cases [(Wire.tagKey, t)] with ⟨typed, -⟩ | ⟨-, -, k, u, eq, mark⟩ |
      ⟨-, single, -⟩
    · have same : Wire.typeKey = Wire.tagKey := List.mem_singleton.mp (Entries.has_iff.mp typed)
      exact absurd same (by decide)
    · cases eq
      exact mark
    · exact absurd rfl (single keeps)
  rw [completed, lacks]
  rfl

/-- A mapping of one entry that says itself what type it has gets no mark. -/
theorem completed_typed (type : Option TypeRef) (t : Tree) (some_ : t ≠ .null) :
    g.completed type (.map [(Wire.typeKey, t)])
      = .map [(Wire.typeKey, g.completed (g.fieldType type Wire.typeKey) t)] := by
  have lacks : g.additionsOf type [(Wire.typeKey, t)] = .nothing := by
    unfold additionsOf
    split
    · rfl
    · rename_i object _
      rcases object.additions_cases [(Wire.typeKey, t)] with ⟨-, eq⟩ | ⟨untyped, -⟩ | ⟨untyped, -⟩
      · exact eq
      · cases untyped
      · cases untyped
  rw [completed, lacks]
  show Tree.map (g.completedEntries _ _) = _
  rw [completedEntries, completedEntries, kept_eq_cons (completed_ne_null some_)]

end Graph

namespace Wire

variable {ks : List String} {k : Key} {es : Entries} {s : String}

/-! ### Encoded entries -/

/-- What an entry is encoded to is found under its key. -/
theorem get?_encodeEntries (wraps : Bool) (s : String) (es : Entries) :
    Entries.get? (.text s) (encodeEntries ks wraps es)
      = (Entries.get? (.text s) es).map
          (encodeAt ks (wraps && !isRawKey (.text s)) (.text s)) := by
  induction es with
  | nil =>
    rw [encodeEntries]
    rfl
  | cons e es ih =>
    obtain ⟨k, t⟩ := e
    rw [encodeEntries]
    by_cases here : k = .text s
    · subst here
      rw [Entries.get?_cons_self, Entries.get?_cons_self]
      rfl
    · rw [Entries.get?_cons_of_ne here, Entries.get?_cons_of_ne here, ih]

theorem keysOf_encodeEntries (wraps : Bool) (es : Entries) :
    keysOf (encodeEntries ks wraps es) = keysOf es := by
  induction es with
  | nil => rw [encodeEntries]
  | cons e es ih =>
    obtain ⟨k, t⟩ := e
    rw [encodeEntries, keysOf_cons, keysOf_cons, ih]

/-- A collapse puts in no type. -/
theorem typeKey_notMem_collapseEntries (untyped : typeKey ∉ keysOf es)
    (untagged : tagKey ∉ keysOf es) : typeKey ∉ keysOf (collapseEntries ks k es) := by
  have rest (names : List Key) : typeKey ∉ keysOf (Entries.without names es) :=
    fun mem => untyped ((List.filter_sublist.map _).subset mem)
  unfold collapseEntries
  split
  · rw [keysOf_cons, List.mem_cons, not_or]
    exact ⟨by decide, rest _⟩
  split
  · rename_i tag _
    intro mem
    obtain ⟨⟨k, t⟩, held, same⟩ := List.mem_map.mp mem
    cases same
    rcases Entries.mem_of_mem_overlay_text held with front | back
    · exact absurd (List.mem_singleton.mp front) (by simp [tagKey])
    · exact rest _ (mem_keysOf back)
  · rw [markedVariant?_eq_none untagged]
    exact untyped

/-- A mapping that does not say its own type has its entries encoded. -/
theorem encode_untyped (untyped : typeKey ∉ keysOf es) :
    encode ks (.map es) = .map (encodeEntries ks true es) := by
  rw [encode, isTyped_eq_false untyped]
  rfl

theorem encodeAt_untyped {wraps : Bool} (untyped : typeKey ∉ keysOf (collapseEntries ks k es)) :
    encodeAt ks wraps k (.map es) = .map (encodeEntries ks true (collapseEntries ks k es)) := by
  rw [encodeAt, isTyped_eq_false untyped]
  rfl

end Wire

end DefinitionTree
