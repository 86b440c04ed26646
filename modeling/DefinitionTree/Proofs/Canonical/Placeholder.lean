/-
DefinitionTree/Proofs/Canonical/Placeholder.lean

Placeholders that are complete as they stand.

Unless a default is declared somewhere below a type, its placeholder is the
sentinel of an absent value or that of a list without items.  Both are complete
as they stand, at every type and in every place.  Where there are defaults, the
placeholder of an object may hold them.  Then it has all the fields that are put
back, so it lacks none; and it is complete if the defaults have nothing to
complete in them, because they are made of scalars and lists alone.

Main statements:

* `Graph.placeholderIn_cases`: what a placeholder looks like;
* `Graph.placeholderIn_bare`: types below which nothing has a default;
* `Graph.hasCompletePlaceholders_of_no_default`,
  `Graph.hasCompletePlaceholders_of_flat`: schemas without defaults, and with
  defaults without mappings.
-/
import DefinitionTree.Proofs.Canonical.Completion
import DefinitionTree.Proofs.Tree.Keys

namespace DefinitionTree

/-- The placeholder is the sentinel of an absent value or of a list without
items. -/
def Placeholder.IsBare (p : Placeholder) : Prop := p = .absent ∨ p = .emptyList

theorem Placeholder.IsBare.isEmpty {p : Placeholder} (h : p.IsBare) : p.isEmpty = true := by
  rcases h with rfl | rfl <;> rfl

/-- The sentinel of one of the two types that stand for nothing. -/
theorem Placeholder.IsBare.value {p : Placeholder} (h : p.IsBare) :
    ∃ s : Wire.Sentinel, (s = .null ∨ s = .array) ∧ p.value = .map [s.mark] := by
  rcases h with rfl | rfl
  · exact ⟨.null, .inl rfl, rfl⟩
  · exact ⟨.array, .inr rfl, rfl⟩

/-- Neither an absent value nor a mapping stands in the tree, at any depth. -/
def Tree.IsFlat (t : Tree) : Prop := ∀ u : Tree, u.IsIn t → u ≠ .null ∧ u.isMap = false

theorem Tree.IsFlat.ne_null {t : Tree} (h : t.IsFlat) : t ≠ .null := (h t (.self t)).1

theorem Tree.isFlat_leaf {t : Tree} (scalar : t.key?.isSome = true) (some_ : t ≠ .null) :
    t.IsFlat := by
  intro u inside
  cases inside with
  | self => exact ⟨some_, isMap_leaf scalar⟩
  | item => cases scalar
  | entry => cases scalar

theorem Tree.IsFlat.of_mem {t : Tree} {ts : List Tree} (h : (Tree.list ts).IsFlat)
    (mem : t ∈ ts) : t.IsFlat := fun u inside => h u (.item mem inside)

/-- The fields of an object type that are put back where they are missing. -/
def ObjectType.restored (t : ObjectType) : List Field :=
  t.fields.filter fun f => !f.annotations.isOmitted

theorem ObjectType.mem_restored {t : ObjectType} {f : Field} :
    f ∈ t.restored ↔ f ∈ t.fields ∧ f.annotations.isOmitted = false := by
  rw [restored, List.mem_filter, Bool.not_eq_true']

/-- With the fields that are put back a mapping lacks none. -/
theorem ObjectType.missing_restored (t : ObjectType) (values : Field → Tree) :
    t.missing (t.restored.map fun f => (.text f.name, values f)) = [] := by
  refine List.filter_eq_nil_iff.mpr fun f hf lacks => ?_
  rw [Bool.and_eq_true, Bool.not_eq_true', Bool.not_eq_true'] at lacks
  have there : Entries.has (.text f.name)
      (t.restored.map fun f => (Key.text f.name, values f)) = true :=
    Entries.has_iff.mpr
      (mem_keysOf (List.mem_map_of_mem (ObjectType.mem_restored.mpr ⟨hf, lacks.2⟩)))
  rw [there] at lacks
  cases lacks.1

namespace Graph

variable {g : Graph}

/-! ### What a placeholder looks like -/

/-- The value that a missing field gets while these types may still be opened. -/
def fieldPlaceholderIn (g : Graph) (closed : List String) (f : Field) : Placeholder :=
  match f.annotations.default? with
  | some d => .ofDefault d
  | none => g.placeholderIn closed f.type

/-- A placeholder is bare, or it is made of the fields of an object. -/
theorem placeholderIn_cases (closed : List String) (r : TypeRef) :
    (g.placeholderIn closed r).IsBare ∨
    ∃ name t, r = .named name ∧ g.type? name = some t ∧ t.keepsTag = false ∧ name ∈ closed ∧
      g.placeholderIn closed r
        = .ofFields (t.restored.map fun f =>
            (f.name, g.fieldPlaceholderIn (closed.erase name) f)) := by
  cases r with
  | primitive p =>
    rw [placeholderIn]
    exact .inl (.inl rfl)
  | list item =>
    rw [placeholderIn]
    exact .inl (.inr rfl)
  | named name =>
    rw [placeholderIn]
    rcases known : g.type? name with - | t
    · exact .inl (.inl rfl)
    · rcases keeps : t.keepsTag with - | -
      -- an object type is taken up once on every way down
      · by_cases mem : name ∈ closed
        · simp only [keeps, mem, Bool.false_eq_true, if_false, dite_true]
          exact .inr ⟨name, t, rfl, known, keeps, mem, rfl⟩
        · simp only [keeps, mem, dite_false, ite_self]
          exact .inl (.inl rfl)
      · simp only [keeps, if_true]
        exact .inl (.inl rfl)

/-- A bare placeholder that is none of a list is that of an absent value. -/
theorem placeholderIn_absent {closed : List String} {name : String}
    (bare : (g.placeholderIn closed (.named name)).IsBare) :
    g.placeholderIn closed (.named name) = .absent := by
  rcases bare with absent | emptyList
  · exact absent
  have other : Placeholder.absent ≠ .emptyList := by
    simp [Placeholder.absent, Placeholder.emptyList, Wire.nullSentinel, Wire.bareArray,
      Wire.Sentinel.mark, Wire.Sentinel.name]
  rw [placeholderIn] at emptyList
  split at emptyList
  · exact absurd emptyList other
  split at emptyList
  · exact absurd emptyList other
  split at emptyList
  · unfold Placeholder.ofFields at emptyList
    split at emptyList
    · exact absurd emptyList other
    · cases congrArg Placeholder.isEmpty emptyList
  · exact absurd emptyList other

/-- Every type that is opened is one fewer to open. -/
theorem length_erase_lt {closed : List String} {name : String} (mem : name ∈ closed) :
    (closed.erase name).length < closed.length := by
  rw [List.length_erase_of_mem mem]
  exact Nat.sub_one_lt (Nat.ne_of_gt (List.length_pos_of_mem mem))

/-- The placeholder of an object is absent, or it has all fields that are put
back. -/
theorem ofFields_cases (fields : List (String × Placeholder)) :
    Placeholder.ofFields fields = .absent ∨
      (Placeholder.ofFields fields).value = .map (fields.map fun f => (.text f.1, f.2.value)) := by
  unfold Placeholder.ofFields
  split
  · exact .inl rfl
  · exact .inr rfl

theorem placeholderIn_value_ne_null (closed : List String) (r : TypeRef) :
    (g.placeholderIn closed r).value ≠ .null := by
  rcases @placeholderIn_cases g closed r with bare | ⟨name, t, rfl, -, -, -, eq⟩
  · obtain ⟨s, -, eq⟩ := bare.value
    rw [eq]
    nofun
  · rw [eq]
    rcases ofFields_cases (t.restored.map fun f =>
      (f.name, g.fieldPlaceholderIn (closed.erase name) f)) with absent | fields
    · rw [absent]
      nofun
    · rw [fields]
      nofun

/-! ### When a placeholder is bare -/

/-- The types are such that no object among them has a field with a default,
and the types of their fields are among them again. -/
def LacksDefaults (g : Graph) (among : TypeRef → Prop) : Prop :=
  ∀ name t, among (.named name) → g.type? name = some t → t.keepsTag = false →
    ∀ f ∈ t.fields, f.annotations.isOmitted = false →
      f.annotations.default? = none ∧ among f.type

theorem placeholderIn_bare {among : TypeRef → Prop} (lacks : g.LacksDefaults among)
    (closed : List String) (r : TypeRef) (h : among r) : (g.placeholderIn closed r).IsBare := by
  -- the induction is on the types that may still be opened
  induction n : closed.length using Nat.strongRecOn generalizing closed r with
  | ind n ih =>
    subst n
    rcases @placeholderIn_cases g closed r with bare | ⟨name, t, rfl, known, keeps, mem, eq⟩
    · exact bare
    · have empty : ∀ f ∈ t.restored,
          (g.fieldPlaceholderIn (closed.erase name) f).isEmpty = true := by
        intro f hf
        obtain ⟨hf, back⟩ := ObjectType.mem_restored.mp hf
        obtain ⟨none, inside⟩ := lacks name t h known keeps f hf back
        simp only [fieldPlaceholderIn, none]
        exact (ih _ (length_erase_lt mem) (closed.erase name) f.type inside rfl).isEmpty
      left
      rw [eq, Placeholder.ofFields, if_pos]
      simpa using empty

theorem placeholder_bare {among : TypeRef → Prop} (lacks : g.LacksDefaults among)
    {r : TypeRef} (h : among r) : (g.placeholder r).IsBare :=
  placeholderIn_bare lacks g.typeNames r h

/-! ### Bare placeholders are complete -/

/-- A sentinel that has nothing but its mark lacks nothing. -/
theorem fillWith_mark (s : Wire.Sentinel) (filler : Filler) (type : Option TypeRef)
    (place : ElementId) :
    g.fillWith filler type place (.map [s.mark]) = .ok (.map [s.mark]) := by
  have nothing : g.additions type place [s.mark] = .nothing := by
    unfold additions
    split
    · rfl
    · have : Entries.has Wire.typeKey [s.mark] = true := by
        rw [Wire.typeKey, Entries.has_iff]
        exact List.mem_cons_self
      simp only [ObjectType.additions, this, if_true]
  rw [fillWith, nothing]
  rfl

theorem fillWith_bare {p : Placeholder} (h : p.IsBare) (filler : Filler) (type : Option TypeRef)
    (place : ElementId) : g.fillWith filler type place p.value = .ok p.value := by
  obtain ⟨s, -, e⟩ := h.value
  rw [e]
  exact fillWith_mark s filler type place

/-! ### Schemas without defaults -/

/-- No field of the schema has a default. -/
def HasNoDefaults (g : Graph) : Prop :=
  ∀ t ∈ g.types, ∀ f ∈ t.fields, f.annotations.default? = none

instance (g : Graph) : Decidable g.HasNoDefaults :=
  decidable_of_iff (∀ t ∈ g.types, ∀ f ∈ t.fields, f.annotations.default?.isNone = true)
    (by simp only [Option.isNone_iff_eq_none, HasNoDefaults])

theorem HasNoDefaults.lacksDefaults (h : g.HasNoDefaults) : g.LacksDefaults fun _ => True :=
  fun _ t _ known _ f hf _ => ⟨h t (List.mem_of_find?_eq_some known) f hf, trivial⟩

theorem fieldPlaceholder_bare (h : g.HasNoDefaults) {type : Option TypeRef} {t : ObjectType}
    {f : Field} (back : g.PutsBack type t f) : (g.fieldPlaceholder f).IsBare := by
  rw [fieldPlaceholder, h t (mem_types_of_objectAt? back.object) f back.mem]
  exact placeholder_bare h.lacksDefaults trivial

/-- Without defaults every placeholder is complete. -/
theorem hasCompletePlaceholders_of_no_default (h : g.HasNoDefaults) :
    g.HasCompletePlaceholders :=
  fun _ _ _ back filler place _ => fillWith_bare (fieldPlaceholder_bare h back) filler _ place

/-! ### Schemas with flat defaults -/

/-- No default of the schema holds an absent value or a mapping. -/
def HasFlatDefaults (g : Graph) : Prop :=
  ∀ t ∈ g.types, ∀ f ∈ t.fields, ∀ d, f.annotations.default? = some d → d.IsFlat

theorem HasNoDefaults.hasFlatDefaults (h : g.HasNoDefaults) : g.HasFlatDefaults :=
  fun t ht f hf _ default_ => nomatch (h t ht f hf).symm.trans default_

variable {filler : Filler} {type : Option TypeRef} {place : ElementId}

theorem HasFlatDefaults.of_putsBack (flat : g.HasFlatDefaults) {t : ObjectType} {f : Field}
    (back : g.PutsBack type t f) {d : Tree} (default_ : f.annotations.default? = some d) :
    d.IsFlat :=
  flat t (mem_types_of_objectAt? back.object) f back.mem d default_

/-- What a field gets is never null. -/
theorem fieldPlaceholderIn_ne_null (flat : g.HasFlatDefaults) {t : ObjectType} {f : Field}
    (back : g.PutsBack type t f) (closed : List String) :
    (g.fieldPlaceholderIn closed f).value ≠ .null := by
  rcases default_ : f.annotations.default? with - | d
  · simp only [fieldPlaceholderIn, default_]
    exact placeholderIn_value_ne_null _ _
  · simp only [fieldPlaceholderIn, default_]
    exact (flat.of_putsBack back default_).ne_null

theorem fillItems_eq_self {ts : List Tree} (some_ : ∀ t ∈ ts, t ≠ .null)
    (each : ∀ t ∈ ts, ∀ place, g.fillWith filler type place t = .ok t) (index : Nat) :
    g.fillItems filler type place index ts = .ok ts := by
  induction ts generalizing index with
  | nil => rfl
  | cons t ts ih =>
    obtain ⟨here, there⟩ := List.forall_mem_cons.mp some_
    obtain ⟨first, rest⟩ := List.forall_mem_cons.mp each
    rw [fillItems, first, ih there rest]
    cases t with
    | null => exact absurd rfl here
    | _ => rfl

theorem fillEntries_eq_self {es : Entries} (some_ : ∀ e ∈ es, e.2 ≠ .null)
    (each : ∀ e ∈ es, g.fillWith filler (g.fieldType type e.1) (place.entry e.1) e.2 = .ok e.2) :
    g.fillEntries filler type place es = .ok es := by
  induction es with
  | nil => rfl
  | cons e es ih =>
    obtain ⟨k, t⟩ := e
    obtain ⟨here, there⟩ := List.forall_mem_cons.mp some_
    obtain ⟨first, rest⟩ := List.forall_mem_cons.mp each
    rw [fillEntries, first, ih there rest]
    exact congrArg Except.ok (kept_eq_cons here es)

/-- Filling leaves a flat tree as it is, since no mapping stands in it. -/
theorem fillWith_isFlat {t : Tree} (flat : t.IsFlat) :
    g.fillWith filler type place t = .ok t := by
  induction t using Tree.induct generalizing type place with
  | leaf t scalar => exact fillWith_leaf scalar
  | list ts ih =>
    have inside (t : Tree) (mem : t ∈ ts) : t.IsFlat := flat.of_mem mem
    rw [fillWith, fillItems_eq_self (fun t mem => (inside t mem).ne_null)
      fun t mem _ => ih t mem (inside t mem)]
    rfl
  | map es => exact absurd (flat _ (.self _)).2 (by simp [Tree.isMap])

/-- A mapping with all fields that are put back lacks nothing: only its values are
completed. -/
theorem fillWith_restored {t : ObjectType} (object : g.objectAt? (g.typeAt type place) = some t)
    (keeps : t.keepsTag = false) (values : Field → Tree) :
    g.fillWith filler type place (.map (t.restored.map fun f => (.text f.name, values f)))
      = Tree.map <$> g.fillEntries filler type place
          (t.restored.map fun f => (.text f.name, values f)) := by
  generalize filled : g.fillEntries filler type place
    (t.restored.map fun f => (.text f.name, values f)) = x
  have additions : g.additions type place (t.restored.map fun f => (.text f.name, values f))
      = t.additions (t.restored.map fun f => (.text f.name, values f)) := by
    rw [additions_eq_additionsOf, additionsOf, object]
  rw [fillWith, additions]
  rcases t.additions_cases (t.restored.map fun f => (.text f.name, values f)) with
    ⟨-, eq⟩ | ⟨-, union, -⟩ | ⟨-, -, eq⟩
  · simp only [eq, filled]
  · rw [keeps] at union
    cases union
  · simp only [eq, t.missing_restored values, filled, fillFields]
    rcases x with e | fs
    · rfl
    · show Except.ok (Tree.map (fs ++ [])) = _
      rw [List.append_nil]
      rfl

/-- Where defaults are flat a placeholder is complete at its type. -/
theorem fillWith_placeholderIn (distinct : g.HasDistinctFields) (flat : g.HasFlatDefaults)
    (closed : List String) (r : TypeRef) (counts : g.Counts (some r) place) :
    g.fillWith filler (some r) place (g.placeholderIn closed r).value
      = .ok (g.placeholderIn closed r).value := by
  -- the induction is on the types that may still be opened
  induction n : closed.length using Nat.strongRecOn generalizing closed r place with
  | ind n ih =>
    subst n
    rcases @placeholderIn_cases g closed r with bare | ⟨name, t, rfl, known, keeps, mem, eq⟩
    · exact fillWith_bare bare filler _ place
    have object : g.objectAt? (some (.named name)) = some t := known
    rw [eq]
    rcases ofFields_cases (t.restored.map fun f =>
      (f.name, g.fieldPlaceholderIn (closed.erase name) f)) with absent | fields
    · rw [absent]
      exact fillWith_bare (.inl rfl) filler _ place
    have put (f : Field) (hf : f ∈ t.restored) : g.PutsBack (some (.named name)) t f :=
      ⟨object, (ObjectType.mem_restored.mp hf).1, (ObjectType.mem_restored.mp hf).2⟩
    rw [fields, List.map_map]
    have at_ : g.objectAt? (g.typeAt (some (.named name)) place) = some t :=
      counts.stands.symm ▸ object
    refine (fillWith_restored at_ keeps fun f =>
      (g.fieldPlaceholderIn (closed.erase name) f).value).trans ?_
    refine congrArg (Tree.map <$> ·) (fillEntries_eq_self ?_ ?_)
    · exact List.forall_mem_map.mpr fun f hf => fieldPlaceholderIn_ne_null flat (put f hf) _
    · -- a default is flat, and any other placeholder has fewer types to open
      refine List.forall_mem_map.mpr fun f hf => ?_
      have type : g.fieldType (some (.named name)) (.text f.name) = some f.type :=
        (put f hf).fieldType distinct
      rcases default_ : f.annotations.default? with - | d
      · simp only [fieldPlaceholderIn, default_, type]
        exact ih _ (length_erase_lt mem) (closed.erase name) f.type
          (counts_entry counts.deep _) rfl
      · simp only [fieldPlaceholderIn, default_]
        exact fillWith_isFlat (flat.of_putsBack (put f hf) default_)

/-- Where defaults are flat, what a missing field gets is complete at its type. -/
theorem hasCompletePlaceholders_of_flat (distinct : g.HasDistinctFields)
    (flat : g.HasFlatDefaults) : g.HasCompletePlaceholders := by
  intro type t f back filler place counts
  rw [back.fieldType distinct] at counts ⊢
  rcases default_ : f.annotations.default? with - | d
  · simp only [fieldPlaceholder, default_]
    exact fillWith_placeholderIn distinct flat g.typeNames f.type counts
  · simp only [fieldPlaceholder, default_]
    exact fillWith_isFlat (flat.of_putsBack back default_)

end Graph

end DefinitionTree
