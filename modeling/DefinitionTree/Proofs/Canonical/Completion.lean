/-
DefinitionTree/Proofs/Canonical/Completion.lean

Completion as a function of the type.

Filling counts how deep fillings nest, and asks at every place which type counts
there.  Where every placeholder is complete as it stands, neither matters: the
completed form of a value is then a plain recursion on the value and its
declared type, and it always exists.

Main statements:

* `ObjectType.additions_cases`, `ObjectType.additions_eq_of_perm`: what a mapping
  at an object type lacks;
* `Graph.fillWith_eq_completed`: filling gives the completed form;
* `Graph.complete_map`: so does completing a whole definition.
-/
import DefinitionTree.Canonical.Completion
import DefinitionTree.Proofs.Canonical.Place
import DefinitionTree.Proofs.Tree.Induction
import DefinitionTree.Proofs.Tree.Keys

namespace DefinitionTree

namespace ObjectType

/-- A mapping at an object type says itself what type it has, or it is a single
variant of a union that keeps its tag, or it lacks fields. -/
theorem additions_cases (t : ObjectType) (es : Entries) :
    (Entries.has Wire.typeKey es = true ∧ t.additions es = .nothing) ∨
    (Entries.has Wire.typeKey es = false ∧ t.keepsTag = true ∧
      ∃ k u, es = [(k, u)] ∧ t.additions es = .variantMark k) ∨
    (Entries.has Wire.typeKey es = false ∧ (t.keepsTag = true → es.length ≠ 1) ∧
      t.additions es = .fields t.name (t.missing es)) := by
  unfold ObjectType.additions
  rcases typed : Entries.has Wire.typeKey es with - | -
  · rcases keeps : t.keepsTag with - | -
    · exact .inr (.inr ⟨rfl, nofun, rfl⟩)
    · rcases es with - | ⟨⟨k, u⟩, - | ⟨e, es⟩⟩
      · exact .inr (.inr ⟨rfl, fun _ => by simp, rfl⟩)
      · exact .inr (.inl ⟨rfl, rfl, k, u, rfl, rfl⟩)
      · exact .inr (.inr ⟨rfl, fun _ => by simp, rfl⟩)
  · exact .inl ⟨rfl, rfl⟩

/-- What a mapping lacks depends on its keys alone, and not on their order. -/
theorem additions_eq_of_perm (t : ObjectType) {es fs : Entries}
    (same : (keysOf es).Perm (keysOf fs)) : t.additions fs = t.additions es := by
  have has_eq := Entries.has_eq_of_perm same
  have missing : t.missing fs = t.missing es := by simp only [missing, has_eq]
  have length : fs.length = es.length := by simpa [keysOf] using same.length_eq.symm
  have typed : Entries.has Wire.typeKey fs = Entries.has Wire.typeKey es := has_eq "@_type"
  rcases t.additions_cases es with ⟨sentinel, eq⟩ | ⟨untyped, keeps, k, u, rfl, eq⟩ |
    ⟨untyped, single, eq⟩
  · rw [eq]
    unfold additions
    rw [if_pos (typed.trans sentinel)]
  · -- the only entry of either has the same key
    obtain ⟨⟨k', u'⟩, rfl⟩ := List.length_eq_one_iff.mp length
    obtain rfl : k' = k := by simpa [keysOf] using same.symm
    rw [eq]
    unfold additions
    rw [if_neg (by rw [typed, untyped]; decide), keeps]
  · rcases t.additions_cases fs with ⟨sentinel, -⟩ | ⟨-, keeps, k, u, rfl, -⟩ | ⟨-, -, eq'⟩
    · rw [typed, untyped] at sentinel
      cases sentinel
    · exact absurd length.symm (single keeps)
    · rw [eq, eq', missing]

/-- The missing fields have different names, and none of them is there. -/
theorem missing_new (t : ObjectType) (es : Entries) (distinct : (t.fields.map (·.name)).Nodup) :
    ((t.missing es).map fun f => Key.text f.name).Nodup ∧
      ∀ f ∈ t.missing es, Key.text f.name ∉ keysOf es := by
  constructor
  · have keys : ((t.missing es).map fun f => Key.text f.name)
        = ((t.missing es).map (·.name)).map Key.text := by simp
    rw [keys]
    exact (distinct.sublist (List.filter_sublist.map _)).map fun _ _ same => Key.text.inj same
  · intro f hf there
    have lacks := (List.mem_filter.mp hf).2
    rw [Entries.has_iff.mpr there] at lacks
    cases lacks

end ObjectType

namespace Graph

variable {g : Graph} {type : Option TypeRef} {place : ElementId}

/-! ### The completed form -/

/-- What a mapping of a type lacks. -/
def additionsOf (g : Graph) (type : Option TypeRef) (es : Entries) : Additions :=
  match g.objectAt? type with
  | none => .nothing
  | some t => t.additions es

/-- The placeholders of fields as entries. -/
def placeholders (g : Graph) : List Field → Entries
  | [] => []
  | f :: rest => kept (.text f.name) (g.fieldPlaceholder f).value (g.placeholders rest)

mutual

/-- A value of a type with everything put in that it lacks. -/
def completed (g : Graph) (type : Option TypeRef) : Tree → Tree
  | .list ts => .list (g.completedItems (itemType type) ts)
  | .map es =>
    match g.additionsOf type es with
    | .nothing => .map (g.completedEntries type es)
    | .variantMark k =>
      if k.same Wire.tagKey then .map [(k, Tree.ofKey k)]
      else .map (g.completedEntries type es ++ kept Wire.tagKey (Tree.ofKey k) [])
    | .fields _ missing => .map (g.completedEntries type es ++ g.placeholders missing)
  | t => t

/-- The items of a list, completed; null items are left out. -/
def completedItems (g : Graph) (type : Option TypeRef) : List Tree → List Tree
  | [] => []
  | t :: rest =>
    match g.completed type t with
    | .null => g.completedItems type rest
    | u => u :: g.completedItems type rest

/-- The values of a mapping, completed; null values are left out. -/
def completedEntries (g : Graph) (type : Option TypeRef) : Entries → Entries
  | [] => []
  | (k, t) :: rest => kept k (g.completed (g.fieldType type k) t) (g.completedEntries type rest)

end

/-! ### Placeholders that are complete -/

/-- The field is put back into values of this type. -/
structure PutsBack (g : Graph) (type : Option TypeRef) (t : ObjectType) (f : Field) : Prop where
  object : g.objectAt? type = some t
  mem : f ∈ t.fields
  kept : f.annotations.isOmitted = false

/-- The fields of each type have different names. -/
def HasDistinctFields (g : Graph) : Prop := ∀ t ∈ g.types, (t.fields.map (·.name)).Nodup

theorem mem_types_of_objectAt? {t : ObjectType} (h : g.objectAt? type = some t) :
    t ∈ g.types := by
  obtain ⟨r, rfl, hr⟩ := Option.bind_eq_some_iff.mp h
  cases r with
  | named name =>
    unfold object? type? at hr
    exact List.mem_of_find?_eq_some hr
  | _ => cases hr

/-- A field that is put back has its own type. -/
theorem PutsBack.fieldType {t : ObjectType} {f : Field} (h : g.PutsBack type t f)
    (distinct : g.HasDistinctFields) : g.fieldType type (.text f.name) = some f.type := by
  have there : (t.field? f.name).isSome = true := List.find?_isSome.mpr ⟨f, h.mem, by simp⟩
  obtain ⟨f', found⟩ := Option.isSome_iff_exists.mp there
  have name : f'.name = f.name := by simpa using List.find?_some found
  have same : f' = f := List.inj_on_of_nodup_map
    (distinct t (mem_types_of_objectAt? h.object)) (List.mem_of_find?_eq_some found) h.mem name
  simp [Graph.fieldType, h.object, found, same]

/-- The placeholder of every field lacks nothing where it is put in. -/
def HasCompletePlaceholders (g : Graph) : Prop :=
  ∀ type t f, g.PutsBack type t f → ∀ filler place,
    g.Counts (g.fieldType type (.text f.name)) place →
    g.fillWith filler (g.fieldType type (.text f.name)) place (g.fieldPlaceholder f).value
      = .ok (g.fieldPlaceholder f).value

/-- The way to fill fields puts in their placeholders. -/
def PutsPlaceholders (g : Graph) (filler : Filler) : Prop :=
  ∀ type t f, g.PutsBack type t f → ∀ place,
    g.Counts (g.fieldType type (.text f.name)) place →
    filler t.name f (g.fieldType type (.text f.name)) place = .ok (g.fieldPlaceholder f).value

theorem nestedFiller_putsPlaceholders (h : g.HasCompletePlaceholders) (depth : Nat) :
    g.PutsPlaceholders (g.nestedFiller (depth + 1)) :=
  fun type t f back place counts => h type t f back (g.nestedFiller depth) place counts

/-! ### Filling gives the completed form -/

theorem kept_eq_cons {k : Key} {t : Tree} (h : t ≠ .null) (es : Entries) :
    kept k t es = (k, t) :: es := by
  cases t with
  | null => exact absurd rfl h
  | _ => rfl

/-- A completed value is null only if the value itself is. -/
theorem completed_ne_null {t : Tree} (h : t ≠ .null) : g.completed type t ≠ .null := by
  cases t with
  | null => exact absurd rfl h
  | map es =>
    rw [completed]
    split
    · simp
    · split <;> simp
    · simp
  | list ts => simp [completed]
  | _ => simp [completed]

theorem completedEntries_eq_map {es : Entries} (h : ∀ e ∈ es, e.2 ≠ .null) :
    g.completedEntries type es = es.map fun e => (e.1, g.completed (g.fieldType type e.1) e.2) := by
  induction es with
  | nil => rfl
  | cons e es ih =>
    obtain ⟨k, t⟩ := e
    rw [completedEntries, ih fun f hf => h f (List.mem_cons_of_mem _ hf),
      kept_eq_cons (completed_ne_null (h _ List.mem_cons_self)), List.map_cons]

theorem completedItems_eq_map {ts : List Tree} (h : ∀ t ∈ ts, t ≠ .null) :
    g.completedItems type ts = ts.map (g.completed type) := by
  induction ts with
  | nil => rfl
  | cons t ts ih =>
    have here : g.completed type t ≠ .null := completed_ne_null (h t List.mem_cons_self)
    rw [completedItems, ih fun u hu => h u (List.mem_cons_of_mem _ hu), List.map_cons]
    split
    · contradiction
    · rfl

theorem placeholders_eq_map {fs : List Field}
    (h : ∀ f ∈ fs, (g.fieldPlaceholder f).value ≠ .null) :
    g.placeholders fs = fs.map fun f => (.text f.name, (g.fieldPlaceholder f).value) := by
  induction fs with
  | nil => rfl
  | cons f fs ih =>
    rw [placeholders, ih fun f hf => h f (List.mem_cons_of_mem _ hf),
      kept_eq_cons (h f List.mem_cons_self), List.map_cons]

/-- What a mapping lacks is decided by the type that counts where it is. -/
theorem additions_eq_additionsOf (es : Entries) :
    g.additions type place es = g.additionsOf (g.typeAt type place) es := by
  unfold additions additionsOf
  cases g.objectAt? (g.typeAt type place) <;> rfl

theorem additions_eq (stands : g.typeAt type place = type) (es : Entries) :
    g.additions type place es = g.additionsOf type es := by
  rw [additions_eq_additionsOf, stands]

/-- Fields are missing only where an object is declared, which has them and puts
them back. -/
theorem putsBack_of_additionsOf {es : Entries} {owner : String} {missing : List Field}
    (h : g.additionsOf type es = .fields owner missing) :
    ∃ t, t.name = owner ∧ ∀ f ∈ missing, g.PutsBack type t f := by
  unfold additionsOf at h
  split at h
  · cases h
  · rename_i t object
    rcases t.additions_cases es with ⟨-, eq⟩ | ⟨-, -, k, u, -, eq⟩ | ⟨-, -, eq⟩
    · rw [eq] at h
      cases h
    · rw [eq] at h
      cases h
    · rw [eq] at h
      cases h
      refine ⟨t, rfl, fun f hf => ?_⟩
      obtain ⟨mem, lacks⟩ := List.mem_filter.mp hf
      rw [Bool.and_eq_true, Bool.not_eq_true', Bool.not_eq_true'] at lacks
      exact ⟨object, mem, lacks.2⟩

theorem fillFields_eq {filler : Filler} (h : g.PutsPlaceholders filler) {t : ObjectType}
    {missing : List Field} (back : ∀ f ∈ missing, g.PutsBack type t f)
    (deep : rootDepth ≤ place.depth) :
    g.fillFields filler type place t.name missing = .ok (g.placeholders missing) := by
  induction missing with
  | nil => rfl
  | cons f rest ih =>
    have here := h type t f (back f List.mem_cons_self) _ (counts_entry deep (.text f.name))
    have there := ih fun f hf => back f (List.mem_cons_of_mem _ hf)
    simp only [fillFields, here, there]
    rfl

/-- Filling a tree gives its completed form, wherever the declared type counts. -/
def FillsTo (g : Graph) (filler : Filler) (t : Tree) : Prop :=
  ∀ (type : Option TypeRef) (place : ElementId), g.Counts type place →
    g.fillWith filler type place t = .ok (g.completed type t)

theorem fillItems_eq_completed {filler : Filler} {ts : List Tree}
    (h : ∀ t ∈ ts, g.FillsTo filler t) (index : Nat) (deep : rootDepth ≤ place.depth) :
    g.fillItems filler type place index ts = .ok (g.completedItems type ts) := by
  induction ts generalizing index with
  | nil => rfl
  | cons t rest ih =>
    have here := h t List.mem_cons_self type _ (counts_item deep index)
    have there := ih (fun u hu => h u (List.mem_cons_of_mem _ hu)) (index + 1)
    rw [fillItems, here, there, completedItems]
    cases g.completed type t <;> rfl

theorem fillEntries_eq_completed {filler : Filler} {es : Entries}
    (h : ∀ e ∈ es, g.FillsTo filler e.2) (deep : rootDepth ≤ place.depth) :
    g.fillEntries filler type place es = .ok (g.completedEntries type es) := by
  induction es with
  | nil => rfl
  | cons e rest ih =>
    obtain ⟨k, t⟩ := e
    have here := h _ List.mem_cons_self (g.fieldType type k) _ (counts_entry deep k)
    have there := ih fun f hf => h f (List.mem_cons_of_mem _ hf)
    rw [fillEntries, here, there, completedEntries]
    rfl

/-- Filling leaves a tree without entries and items as it is. -/
theorem fillWith_leaf {filler : Filler} {t : Tree} (scalar : t.key?.isSome = true) :
    g.fillWith filler type place t = .ok t := by
  cases t with
  | list => cases scalar
  | map => cases scalar
  | _ => rfl

theorem completed_leaf {t : Tree} (scalar : t.key?.isSome = true) : g.completed type t = t := by
  cases t with
  | list => cases scalar
  | map => cases scalar
  | _ => rfl

/-- Filling gives the completed form. -/
theorem fillWith_eq_completed {filler : Filler} (h : g.PutsPlaceholders filler) (t : Tree) :
    g.FillsTo filler t := by
  induction t using Tree.induct with
  | leaf t scalar =>
    intro type place _
    rw [fillWith_leaf scalar, completed_leaf scalar]
  | list ts ih =>
    intro type place ⟨deep, _⟩
    rw [fillWith, fillItems_eq_completed ih 0 deep, completed]
    rfl
  | map es ih =>
    intro type place ⟨deep, stands⟩
    have old : g.fillEntries filler type place es = .ok (g.completedEntries type es) :=
      fillEntries_eq_completed ih deep
    rw [fillWith, additions_eq stands, completed]
    rcases lacks : g.additionsOf type es with - | k | ⟨owner, missing⟩
    · rw [old]
      rfl
    · by_cases mark : k.same Wire.tagKey = true
      · simp only [mark, if_true]
      · simp only [mark, old]
        rfl
    · obtain ⟨t, rfl, back⟩ := putsBack_of_additionsOf lacks
      simp only [old, fillFields_eq h back deep]
      rfl

/-- The completed form of a definition that is a mapping. -/
theorem complete_map (h : g.HasCompletePlaceholders) (deep : rootDepth ≤ place.depth)
    (es : Entries) :
    g.complete place (.map es) = .ok (g.completed (some g.rootRef) (.map es)) := by
  have fills : g.fill g.nesting (some g.rootRef) place (.map es)
      = .ok (g.completed (some g.rootRef) (.map es)) :=
    fillWith_eq_completed (nestedFiller_putsPlaceholders h (g.fieldNames.length + 1)) (.map es)
      (some g.rootRef) place (counts_root deep)
  rw [complete, fills, completed]
  split
  · rfl
  · split <;> rfl
  · rfl

end Graph

end DefinitionTree
