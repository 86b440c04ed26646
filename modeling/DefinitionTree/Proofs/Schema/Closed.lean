/-
DefinitionTree/Proofs/Schema/Closed.lean

Schemas in which every reference leads somewhere.

A draft is built only if all its references are known: what is left of each when
its list layers are taken off is builtin or declared.  A schema takes the layers
off one at a time, and asks in another order, for a builtin type first, then for a
list, and only then for a declared type.  The two agree because no builtin name
spells a list.  So whatever a walk through a schema that was built looks up, along
whatever cycles, stands for something.

Main definitions and statements:

* `TypeRef.bareName`: what is left of a reference inside all lists;
* `Draft.exists_build_iff`: which drafts are built;
* `Graph.resolve`, `Graph.nodeAlong`: references looked up one at a time;
* `Graph.exists_nodeAlong`: no look-up fails in a closed schema.
-/
import DefinitionTree.Proofs.Canonical.Extension
import DefinitionTree.Proofs.Outcome
import DefinitionTree.Proofs.Schema.Draft

namespace DefinitionTree

/-! ### References inside all lists -/

namespace TypeRef

/-- What is left of a spelling when its list layers are taken off. -/
def bareChars (cs : List Char) : List Char :=
  match h : listItem? cs with
  | some item =>
    have : item.length < cs.length := length_of_listItem? h
    bareChars item
  | none => cs
termination_by cs.length

/-- The name that is left of a reference when its list layers are taken off. -/
def bareName (s : String) : String := .ofList (bareChars s.toList)

theorem bareChars_of_list {cs item : List Char} (h : listItem? cs = some item) :
    bareChars cs = bareChars item := by
  rw [bareChars]
  split
  · rename_i item' h'
    rw [h] at h'
    cases h'
    rfl
  · rename_i none
    rw [h] at none
    cases none

theorem bareChars_of_none {cs : List Char} (h : listItem? cs = none) : bareChars cs = cs := by
  rw [bareChars]
  split
  · rename_i item some_
    rw [h] at some_
    cases some_
  · rfl

/-- No builtin name spells a list. -/
theorem listItem?_of_builtin {cs : List Char} {p : Primitive}
    (h : Primitive.ofName? (.ofList cs) = some p) : listItem? cs = none := by
  have name : p.name = .ofList cs := by simpa using List.find?_some h
  have chars : cs = p.name.toList := by rw [name, String.toList_ofList]
  rw [chars]
  cases p <;> decide

theorem ofChars_of_builtin {cs : List Char} {p : Primitive}
    (h : Primitive.ofName? (.ofList cs) = some p) : ofChars cs = .primitive p := by
  rw [ofChars, h]

theorem ofChars_of_list {cs item : List Char} (other : Primitive.ofName? (.ofList cs) = none)
    (h : listItem? cs = some item) : ofChars cs = .list (ofChars item) := by
  rw [ofChars, other]
  dsimp only
  split
  · rename_i item' h'
    rw [h] at h'
    cases h'
    rfl
  · rename_i none
    rw [h] at none
    cases none

theorem ofChars_of_name {cs : List Char} (other : Primitive.ofName? (.ofList cs) = none)
    (h : listItem? cs = none) : ofChars cs = .named (.ofList cs) := by
  rw [ofChars, other]
  dsimp only
  split
  · rename_i item some_
    rw [h] at some_
    cases some_
  · rfl

theorem ofText_ofList (cs : List Char) : ofText (.ofList cs) = ofChars cs := by
  rw [ofText, String.toList_ofList]

/-- What stands inside all lists is what the bare name refers to. -/
theorem base_ofChars (cs : List Char) : (ofChars cs).base = ofChars (bareChars cs) := by
  induction cs using bareChars.induct with
  | case1 cs item h _ ih =>
    rcases builtin : Primitive.ofName? (.ofList cs) with - | p
    · rw [ofChars_of_list builtin h, bareChars_of_list h, base, ih]
    · rw [listItem?_of_builtin builtin] at h
      cases h
  | case2 cs h =>
    rw [bareChars_of_none h]
    rcases builtin : Primitive.ofName? (.ofList cs) with - | p
    · rw [ofChars_of_name builtin h, base]
      nofun
    · rw [ofChars_of_builtin builtin, base]
      nofun

theorem listItem?_bareChars (cs : List Char) : listItem? (bareChars cs) = none := by
  induction cs using bareChars.induct with
  | case1 cs item h _ ih => rwa [bareChars_of_list h]
  | case2 cs h => rwa [bareChars_of_none h]

/-- Inside all lists a builtin type or a name is left. -/
theorem base_ofText (s : String) :
    (ofText s).base = match Primitive.ofName? (bareName s) with
      | some p => .primitive p
      | none => .named (bareName s) := by
  rw [ofText, base_ofChars]
  rcases builtin : Primitive.ofName? (bareName s) with - | p
  · exact ofChars_of_name builtin (listItem?_bareChars _)
  · exact ofChars_of_builtin builtin

end TypeRef

/-! ### Which drafts are built -/

namespace Draft

variable {d e : Draft}

/-- A type is declared under this name. -/
def Declares (d : Draft) (name : String) : Prop := ∃ t ∈ d.types, t.name = name

/-- The name is that of a builtin type or of a declared one. -/
def Knows (d : Draft) (name : String) : Prop :=
  (Primitive.ofName? name).isSome = true ∨ d.Declares name

theorem isSome_type?_iff {name : String} : (d.type? name).isSome = true ↔ d.Declares name := by
  simp [type?, Declares]

/-- A reference passes just if what is left of it inside all lists is known. -/
theorem checkRef_ofText {owner : String} (s : String) :
    d.checkRef owner (.ofText s) = .ok () ↔ d.Knows (TypeRef.bareName s) := by
  rw [checkRef, TypeRef.base_ofText, Knows]
  rcases Primitive.ofName? (TypeRef.bareName s) with - | p
  · dsimp only
    rw [← isSome_type?_iff]
    split
    · rename_i declared
      simp [declared]
    · rename_i undeclared
      simp [undeclared]
  · simp

/-- The type of each field is the one that is spelled. -/
def HasSpelledTypes (d : Draft) : Prop :=
  ∀ t ∈ d.types, ∀ f ∈ t.fields, f.type = .ofText f.spelling

theorem Step.spelled (step : d.Step e) (h : d.HasSpelledTypes) : e.HasSpelledTypes := by
  cases step with
  | declare eq =>
    unfold Draft.declare at eq
    split at eq
    · cases eq
    · cases eq
      intro t ht
      rcases List.mem_append.mp ht with ht | ht
      · exact h t ht
      · rw [List.mem_singleton.mp ht]
        exact fun _ none => absurd none List.not_mem_nil
  | addField eq =>
    obtain ⟨-, f, -, spelled, rfl⟩ := addField_eq_ok eq
    intro t ht
    obtain ⟨u, hu, rfl⟩ := List.mem_map.mp ht
    split
    · intro f' hf
      rcases List.mem_append.mp hf with hf | hf
      · exact h u hu f' hf
      · rwa [List.mem_singleton.mp hf]
    · exact h u hu

theorem Drafted.spelled (h : d.Drafted) : d.HasSpelledTypes := by
  induction h with
  | empty => exact fun t ht => nomatch ht
  | step _ step ih => exact step.spelled ih

/-- A schema is built just if its root is declared and all references pass. -/
theorem exists_build_iff_checkRef {root : String} : (∃ g, d.build root = .ok g) ↔
    d.Declares root ∧ ∀ t ∈ d.types, ∀ f ∈ t.fields, d.checkRef t.name f.type = .ok () := by
  have checked : (d.types.forM fun t => t.fields.forM fun f => d.checkRef t.name f.type) = .ok () ↔
      ∀ t ∈ d.types, ∀ f ∈ t.fields, d.checkRef t.name f.type = .ok () := by
    simp only [forM_eq_ok_iff]
  rw [← checked, ← isSome_type?_iff, build]
  rcases d.type? root with - | r
  · simp
  · rcases (d.types.forM fun t => t.fields.forM fun f => d.checkRef t.name f.type) with e | ⟨⟩
    · simp
    · exact iff_of_true ⟨_, rfl⟩ ⟨rfl, rfl⟩

/-- **Which drafts are built**: those whose root is declared and in which every
reference, with its list layers taken off, is builtin or declared. -/
theorem exists_build_iff (h : d.Drafted) {root : String} : (∃ g, d.build root = .ok g) ↔
    d.Declares root ∧ ∀ t ∈ d.types, ∀ f ∈ t.fields, d.Knows (TypeRef.bareName f.spelling) := by
  rw [exists_build_iff_checkRef]
  refine and_congr_right fun _ => forall₄_congr fun t ht f hf => ?_
  rw [h.spelled t ht f hf, checkRef_ofText]

end Draft

/-! ### Closed schemas -/

namespace Graph

variable {g : Graph} {type : Option TypeRef}

/-- Every field has the type that is spelled, and inside all lists this stands for
something. -/
structure IsClosed (g : Graph) : Prop where
  spelled : ∀ t ∈ g.types, ∀ f ∈ t.fields, f.type = .ofText f.spelling
  known : ∀ t ∈ g.types, ∀ f ∈ t.fields, g.resolves f.type.base = true

/-- Inside all its lists a declared type stands for something. -/
def IsKnown (g : Graph) (type : Option TypeRef) : Prop :=
  ∀ r, type = some r → g.resolves r.base = true

theorem resolves_of_base {r : TypeRef} (h : g.resolves r.base = true) : g.resolves r = true := by
  cases r with
  | named name => exact h
  | _ => rfl

theorem isKnown_root (g : Graph) : g.IsKnown (some g.rootRef) := by
  rintro r ⟨⟩
  show (g.type? g.root.name).isSome = true
  simp [type?, types]

theorem isKnown_item (h : g.IsKnown type) : g.IsKnown (itemType type) := by
  intro item eq
  rcases type with - | r
  · cases eq
  cases r with
  | list inner =>
    cases eq
    exact h (.list item) rfl
  | _ => cases eq

/-- What is declared for a field is known in a closed schema, whatever it is a field
of. -/
theorem IsClosed.isKnown_field (closed : g.IsClosed) (type : Option TypeRef) (k : Key) :
    g.IsKnown (g.fieldType type k) := by
  intro r eq
  unfold fieldType at eq
  split at eq
  · rename_i t name object
    obtain ⟨f, found, rfl⟩ := Option.map_eq_some_iff.mp eq
    exact closed.known t (mem_types_of_objectAt? object) f (List.mem_of_find?_eq_some found)
  · cases eq

theorem isSome_type?_iff {name : String} :
    (g.type? name).isSome = true ↔ ∃ t ∈ g.types, t.name = name := by
  simp [type?]

/-- A schema that was built has the types of its draft. -/
theorem mem_types_of_build {d : Draft} {root : String} (built : d.build root = .ok g)
    {t : ObjectType} (ht : t ∈ g.types) : t ∈ d.types := by
  obtain ⟨r, found, rfl⟩ := Draft.build_eq_ok built
  rcases List.mem_cons.mp ht with rfl | ht
  · exact List.mem_of_find?_eq_some found
  · exact (List.mem_filter.mp ht).1

/-- A schema that was built has a type under every name that its draft declares. -/
theorem isSome_type?_of_build {d : Draft} {root name : String} (built : d.build root = .ok g)
    (declared : d.Declares name) : (g.type? name).isSome = true := by
  obtain ⟨r, found, rfl⟩ := Draft.build_eq_ok built
  obtain ⟨t, ht, rfl⟩ := declared
  rw [isSome_type?_iff]
  by_cases same : t.name = root
  · have name : r.name = root := by simpa using List.find?_some found
    exact ⟨r, List.mem_cons_self, name.trans same.symm⟩
  · have other : t ∈ d.types.filter fun t => t.name ≠ root :=
      List.mem_filter.mpr ⟨ht, decide_eq_true same⟩
    exact ⟨t, List.mem_cons_of_mem _ other, rfl⟩

/-- Every schema that was built is closed. -/
theorem isClosed_of_build {d : Draft} (h : d.Drafted) {root : String}
    (built : d.build root = .ok g) : g.IsClosed where
  spelled t ht := h.spelled t (mem_types_of_build built ht)
  known t ht f hf := by
    have mem : t ∈ d.types := mem_types_of_build built ht
    have spelled : f.type = .ofText f.spelling := h.spelled t mem f hf
    have known := ((Draft.exists_build_iff h).mp ⟨g, built⟩).2 t mem f hf
    rw [spelled, TypeRef.base_ofText]
    rcases builtin : Primitive.ofName? (TypeRef.bareName f.spelling) with - | p
    · refine isSome_type?_of_build built (known.resolve_left ?_)
      rw [builtin]
      nofun
    · rfl

end Graph

/-! ### Looking references up one at a time -/

/-- What a reference stands for: a builtin type, a list of what another reference
stands for, or an object type. -/
inductive SchemaNode where
  | primitive (p : Primitive)
  | list (item : String)
  | object (t : ObjectType)

namespace Graph

variable {g : Graph} {type : Option TypeRef} {n : SchemaNode} {r : TypeRef}

/-- What a spelled reference stands for: a builtin type before a list, and a list
before a declared type. -/
def resolve (g : Graph) (spelling : String) : Except Failure SchemaNode :=
  match Primitive.ofName? spelling with
  | some p => .ok (.primitive p)
  | none =>
    match TypeRef.listItem? spelling.toList with
    | some item => .ok (.list (.ofList item))
    | none =>
      match g.type? spelling with
      | some t => .ok (.object t)
      | none => .error (.unknownName spelling)

/-- The declared type one step down, if there is one, looked up. -/
def nodeBelow (g : Graph) : SchemaNode → Tree.Step → Except Failure (Option SchemaNode)
  | .object t, .entry name =>
    match t.field? name with
    | some f => some <$> g.resolve f.spelling
    | none => .ok none
  | .list item, .item _ => some <$> g.resolve item
  | _, _ => .ok none

/-- The declared type at the end of a path, looked up step by step. -/
def nodeAlong (g : Graph) : Option SchemaNode → List Tree.Step → Except Failure (Option SchemaNode)
  | n, [] => .ok n
  | none, _ :: _ => .ok none
  | some n, step :: path => do g.nodeAlong (← g.nodeBelow n step) path

/-- The reference stands for this. -/
inductive StandsFor (g : Graph) : TypeRef → SchemaNode → Prop
  | primitive (p : Primitive) : StandsFor g (.primitive p) (.primitive p)
  | list {item : String} : g.resolves (TypeRef.ofText item).base = true →
      StandsFor g (.list (.ofText item)) (.list item)
  | object {name : String} {t : ObjectType} : g.type? name = some t →
      StandsFor g (.named name) (.object t)

/-- A reference to something known is looked up without failing. -/
theorem exists_resolve {s : String} (known : g.resolves (TypeRef.ofText s).base = true) :
    ∃ n, g.resolve s = .ok n ∧ g.StandsFor (.ofText s) n := by
  obtain ⟨cs, rfl⟩ : ∃ cs, s = .ofList cs := ⟨s.toList, String.ofList_toList.symm⟩
  rw [TypeRef.ofText_ofList] at known ⊢
  rw [resolve, String.toList_ofList]
  rcases builtin : Primitive.ofName? (.ofList cs) with - | p
  · rcases list : TypeRef.listItem? cs with - | item
    · rw [TypeRef.ofChars_of_name builtin list] at known ⊢
      obtain ⟨t, found⟩ := Option.isSome_iff_exists.mp known
      rw [found]
      exact ⟨_, rfl, .object found⟩
    · rw [TypeRef.ofChars_of_list builtin list, ← TypeRef.ofText_ofList] at known ⊢
      exact ⟨_, rfl, .list known⟩
  · rw [TypeRef.ofChars_of_builtin builtin]
    exact ⟨_, rfl, .primitive p⟩

/-- One step down nothing fails, and the look-up gives what is declared there. -/
theorem exists_nodeBelow (closed : g.IsClosed) (h : g.StandsFor r n) (step : Tree.Step) :
    ∃ m, g.nodeBelow n step = .ok m ∧ Option.Rel g.StandsFor (g.typeBelow (some r) step) m := by
  cases h with
  | primitive p =>
    refine ⟨none, rfl, ?_⟩
    cases step <;> exact .none
  | @list item known =>
    cases step with
    | item index =>
      obtain ⟨m, resolved, stands⟩ := exists_resolve known
      exact ⟨some m, congrArg (some <$> ·) resolved, .some stands⟩
    | entry name => exact ⟨none, rfl, .none⟩
  | @object name t found =>
    cases step with
    | item index => exact ⟨none, rfl, .none⟩
    | entry field =>
      have type : g.typeBelow (some (.named name)) (.entry field)
          = (t.field? field).map (·.type) := by
        simp [typeBelow, fieldType, objectAt?, object?, found]
      rw [type, nodeBelow]
      rcases there : t.field? field with - | f
      · exact ⟨none, rfl, .none⟩
      · have mem : f ∈ t.fields := List.mem_of_find?_eq_some there
        have types : t ∈ g.types := List.mem_of_find?_eq_some found
        have spelled : f.type = .ofText f.spelling := closed.spelled t types f mem
        obtain ⟨m, resolved, stands⟩ :=
          exists_resolve (spelled ▸ closed.known t types f mem)
        rw [Option.map_some, spelled]
        exact ⟨some m, congrArg (some <$> ·) resolved, .some stands⟩

/-- Below what has no declared type nothing is declared. -/
theorem typeAlong_none (g : Graph) (path : List Tree.Step) : g.typeAlong none path = none := by
  induction path with
  | nil => rfl
  | cons step path ih =>
    have none_ : g.typeBelow none step = none := by cases step <;> rfl
    rw [typeAlong, none_, ih]

/-- Looking up along a path does not fail, and gives the type that is declared there, if
any. -/
theorem exists_nodeAlong (closed : g.IsClosed) {n : Option SchemaNode}
    (h : Option.Rel g.StandsFor type n) (path : List Tree.Step) :
    ∃ m, g.nodeAlong n path = .ok m ∧ Option.Rel g.StandsFor (g.typeAlong type path) m := by
  induction path generalizing type n with
  | nil => exact ⟨n, rfl, h⟩
  | cons step path ih =>
    cases h with
    | none =>
      refine ⟨none, rfl, ?_⟩
      rw [typeAlong_none]
      exact .none
    | some stands =>
      obtain ⟨m, below, rest⟩ := exists_nodeBelow closed stands step
      obtain ⟨m', along, last⟩ := ih rest
      refine ⟨m', ?_, last⟩
      rw [nodeAlong, below]
      exact along

end Graph

end DefinitionTree
