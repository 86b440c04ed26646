/-
DefinitionTree/Proofs/Canonical/Chain.lean

When the placeholder of an object is absent.

A placeholder is built from the fields down, and a type that is open already counts
as absent inside itself.  That cuts the construction off before it has been
everywhere; but it hides no default.  Take a chain of fields that leads to one and
is as short as any: the types along it are ever closer to a default, so none of them
comes twice, and none is open when the construction gets there.  Hence the
placeholder is absent just if no chain of fields leads to a default that holds
something.

Main definitions and statements:

* `Graph.DefaultChain`: chains of fields;
* `Graph.exists_chain`: what is not absent has one;
* `Graph.placeholderIn_of_near`: what has one is not absent;
* `Graph.placeholder_absent_iff`: both, with the fields of what is not absent.
-/
import DefinitionTree.Proofs.Canonical.Placeholder
import DefinitionTree.Proofs.Schema.Draft

namespace DefinitionTree

namespace Graph

/-- The fields lead from the type to a default that is no empty sentinel.  Every one
of them is put back where it is missing.  The last one has the default, and each
other one has none and refers to the object type that owns the next. -/
inductive DefaultChain (g : Graph) : ObjectType → List Field → Prop
  | last {t : ObjectType} {f : Field} {d : Tree} : f ∈ t.restored →
      f.annotations.default? = some d → Wire.isEmptySentinel d = false → DefaultChain g t [f]
  | step {t u : ObjectType} {f : Field} {fs : List Field} : f ∈ t.restored →
      f.annotations.default? = none → g.object? f.type = some u → u.keepsTag = false →
      DefaultChain g u fs → DefaultChain g t (f :: fs)

variable {g : Graph} {t u : ObjectType} {closed : List String}

/-! ### Objects -/

/-- The placeholder of an object that may be opened is made of its fields. -/
theorem placeholderIn_named {name : String} (known : g.type? name = some t)
    (untagged : t.keepsTag = false) (mem : name ∈ closed) :
    g.placeholderIn closed (.named name) = .ofFields (t.restored.map fun f =>
      (f.name, g.fieldPlaceholderIn (closed.erase name) f)) := by
  rw [placeholderIn]
  simp only [known, untagged, mem, Bool.false_eq_true, if_false, dite_true]
  rfl

/-- An object is absent if all its fields are empty, and holds all of them
otherwise. -/
theorem ofFields_eq (t : ObjectType) (p : Field → Placeholder) :
    ((∀ f ∈ t.restored, (p f).isEmpty = true) ∧
        Placeholder.ofFields (t.restored.map fun f => (f.name, p f)) = .absent) ∨
      (∃ f ∈ t.restored, (p f).isEmpty = false) ∧
        Placeholder.ofFields (t.restored.map fun f => (f.name, p f))
          = ⟨.map (t.restored.map fun f => (.text f.name, (p f).value)), false⟩ := by
  rw [Placeholder.ofFields, List.all_map, List.map_map]
  split
  · rename_i all
    exact .inl ⟨List.all_eq_true.mp all, rfl⟩
  · rename_i some_
    rw [Bool.not_eq_true, List.all_eq_false] at some_
    exact .inr ⟨some_.imp fun f => And.imp_right Bool.eq_false_iff.mpr, rfl⟩

/-! ### What is not absent -/

/-- The construction only finds what a chain leads to. -/
theorem exists_chain (closed : List String) (r : TypeRef)
    (some_ : (g.placeholderIn closed r).isEmpty = false) :
    ∃ t fs, g.object? r = some t ∧ t.keepsTag = false ∧ g.DefaultChain t fs := by
  -- the induction is on the types that may still be opened
  induction n : closed.length using Nat.strongRecOn generalizing closed r with
  | ind n ih =>
    subst n
    rcases @placeholderIn_cases g closed r with bare | ⟨name, t, rfl, known, untagged, mem, eq⟩
    · rw [bare.isEmpty] at some_
      cases some_
    · refine ⟨t, ?_⟩
      rw [eq] at some_
      rcases ofFields_eq t (g.fieldPlaceholderIn (closed.erase name)) with
        ⟨-, absent⟩ | ⟨⟨f, hf, held⟩, -⟩
      · rw [absent] at some_
        cases some_
      · rw [fieldPlaceholderIn] at held
        rcases default_ : f.annotations.default? with - | d
        · simp only [default_] at held
          obtain ⟨u, fs, object, untagged', chain⟩ :=
            ih _ (length_erase_lt mem) (closed.erase name) f.type held rfl
          exact ⟨f :: fs, known, untagged, .step hf default_ object untagged' chain⟩
        · simp only [default_] at held
          exact ⟨[f], known, untagged, .last hf default_ held⟩

/-! ### What has a chain -/

/-- Some chain from the type is no longer than this. -/
def IsNear (g : Graph) (n : Nat) (t : ObjectType) : Prop :=
  ∃ fs, g.DefaultChain t fs ∧ fs.length ≤ n

theorem IsNear.mono {m n : Nat} (h : g.IsNear m t) (le : m ≤ n) : g.IsNear n t := by
  obtain ⟨fs, chain, length⟩ := h
  exact ⟨fs, chain, Nat.le_trans length le⟩

/-- The object type that a reference stands for is the one with its own name. -/
theorem exists_name_of_object? {r : TypeRef} (h : g.object? r = some u) :
    r = .named u.name ∧ g.type? u.name = some u := by
  cases r with
  | named name =>
    have known : g.type? name = some u := h
    have eq : u.name = name := by simpa using List.find?_some known
    rw [eq]
    exact ⟨rfl, known⟩
  | _ => cases h

/-- As long as everything that is no farther from a default may still be opened, the
construction finds one. -/
theorem placeholderIn_of_near {n : Nat} (near : g.IsNear n t) (known : g.type? t.name = some t)
    (untagged : t.keepsTag = false)
    (open_ : ∀ u, g.type? u.name = some u → g.IsNear n u → u.name ∈ closed) :
    (g.placeholderIn closed (.named t.name)).isEmpty = false := by
  induction n using Nat.strongRecOn generalizing t closed with
  | ind n ih =>
    by_cases nearer : ∃ m < n, g.IsNear m t
    · -- only the shortest chain from the type counts
      obtain ⟨m, lt, near⟩ := nearer
      exact ih m lt near known untagged fun u known near => open_ u known (near.mono (Nat.le_of_lt lt))
    · have mem : t.name ∈ closed := open_ t known near
      obtain ⟨fs, chain, length⟩ := near
      have held : ∃ f ∈ t.restored,
          (g.fieldPlaceholderIn (closed.erase t.name) f).isEmpty = false := by
        cases chain with
        | @last _ f d hf default_ some_ =>
          refine ⟨f, hf, ?_⟩
          simp only [fieldPlaceholderIn, default_]
          exact some_
        | @step _ u f fs hf default_ object untagged' chain =>
          obtain ⟨eq, known'⟩ := exists_name_of_object? object
          have shorter : fs.length < n := length
          refine ⟨f, hf, ?_⟩
          simp only [fieldPlaceholderIn, default_, eq]
          refine ih fs.length shorter ⟨fs, chain, Nat.le_refl _⟩ known' untagged' fun v known'' near => ?_
          -- what is nearer is another type, and so it is still closed
          have other : v.name ≠ t.name := by
            intro same
            rw [same, known] at known''
            cases known''
            exact nearer ⟨_, shorter, near⟩
          exact (List.mem_erase_of_ne other).mpr (open_ v known'' (near.mono (Nat.le_of_lt shorter)))
      rw [placeholderIn_named known untagged mem]
      rcases ofFields_eq t (g.fieldPlaceholderIn (closed.erase t.name)) with
        ⟨all, -⟩ | ⟨-, eq⟩
      · obtain ⟨f, hf, some_⟩ := held
        rw [all f hf] at some_
        cases some_
      · rw [eq]

/-! ### Either of the two -/

theorem mem_typeNames {name : String} (known : g.type? name = some t) : name ∈ g.typeNames := by
  have eq : t.name = name := by simpa using List.find?_some known
  exact List.mem_map.mpr ⟨t, List.mem_of_find?_eq_some known, eq⟩

/-- **Absent placeholders.**  The placeholder of an object type that keeps no tag is
absent if and only if no chain of fields leads from it to a default that holds
something.  Otherwise it has the fields that are put back, in their order.  Every
type of a schema that was built is known by its name (`Draft.type?_of_build`). -/
theorem placeholder_absent_iff (known : g.type? t.name = some t)
    (untagged : t.keepsTag = false) :
    (g.placeholder (.named t.name) = .absent ↔ ¬∃ fs, g.DefaultChain t fs) ∧
    ((∃ fs, g.DefaultChain t fs) → ∃ es, g.placeholder (.named t.name) = ⟨.map es, false⟩ ∧
      keysOf es = t.restored.map fun f => .text f.name) := by
  -- every type may still be opened, so the construction finds any chain there is
  have found (h : ∃ fs, g.DefaultChain t fs) :
      (g.placeholder (.named t.name)).isEmpty = false := by
    obtain ⟨fs, chain⟩ := h
    exact placeholderIn_of_near ⟨fs, chain, Nat.le_refl _⟩ known untagged
      fun u known' _ => mem_typeNames known'
  have form := placeholderIn_named known untagged (mem_typeNames known)
  rcases ofFields_eq t (g.fieldPlaceholderIn (g.typeNames.erase t.name)) with
    ⟨-, absent⟩ | ⟨-, fields⟩
  · have absent : g.placeholder (.named t.name) = .absent := form.trans absent
    have none : ¬∃ fs, g.DefaultChain t fs := by
      intro h
      have some_ := found h
      rw [absent] at some_
      cases some_
    exact ⟨iff_of_true absent none, fun h => absurd h none⟩
  · have fields := form.trans fields
    have some_ : ∃ fs, g.DefaultChain t fs := by
      obtain ⟨u, fs, object, -, chain⟩ :=
        exists_chain g.typeNames (.named t.name) (by rw [fields])
      obtain rfl : t = u := Option.some.inj (known.symm.trans object)
      exact ⟨fs, chain⟩
    refine ⟨iff_of_false ?_ (not_not_intro some_), fun _ => ⟨_, fields, ?_⟩⟩
    · intro absent
      have eq := congrArg Placeholder.isEmpty (fields.symm.trans absent)
      cases eq
    · rw [keysOf, List.map_map]
      rfl

/-- A type that refers to itself, and to one that refers back and has a default. -/
def folderSchema : Graph where
  root := ⟨"folder", [⟨"parent", .named "folder", "folder", {}⟩,
    ⟨"label", .primitive .string, "string", { omitted? := some true }⟩,
    ⟨"access", .named "access", "access", {}⟩], false, false⟩
  others := [⟨"access", [⟨"folder", .named "folder", "folder", {}⟩,
    ⟨"public", .primitive .boolean, "boolean", { default? := some (.bool false) }⟩], false, false⟩]

/-- The default is two fields away, and what is cut off hides it in neither type. -/
theorem placeholder_folderSchema :
    folderSchema.type? "folder" = some folderSchema.root ∧ folderSchema.root.keepsTag = false ∧
    (∃ fs, folderSchema.DefaultChain folderSchema.root fs) ∧
    folderSchema.placeholder (.named "folder") ≠ .absent ∧
    ∃ es, folderSchema.placeholder (.named "folder") = ⟨.map es, false⟩ ∧
      keysOf es = [.text "parent", .text "access"] := by
  have chain : ∃ fs, folderSchema.DefaultChain folderSchema.root fs := by
    refine ⟨_, .step (f := folderSchema.root.fields[2]) ?_ rfl rfl rfl
      (.last (f := folderSchema.others[0].fields[1]) (d := .bool false) ?_ rfl rfl)⟩
    · simp [ObjectType.restored, folderSchema, Annotations.isOmitted]
    · simp [ObjectType.restored, folderSchema, Annotations.isOmitted]
  obtain ⟨absent_iff, fields⟩ :=
    placeholder_absent_iff (g := folderSchema) (t := folderSchema.root) rfl rfl
  exact ⟨rfl, rfl, chain, fun absent => absent_iff.mp absent chain, fields chain⟩

end Graph

end DefinitionTree
