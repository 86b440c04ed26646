/-
DefinitionTree/Proofs/Schema/Draft.lean

The fields of a type have different names.

A draft starts out empty and grows by declarations, each of which may be
refused.  Since a field that is there already is refused, in whatever order the
declarations come, no type of a draft has two fields of one name, and so no type
of a schema that is built has.

Main statements:

* `Draft.Drafted.step`: what one declaration preserves;
* `Draft.distinct_of_build`, `Draft.type?_of_build`: what holds of every schema that
  was built.
-/
import DefinitionTree.Schema.Draft
import Mathlib.Data.List.Nodup

namespace DefinitionTree.Draft

variable {d e : Draft}

/-- One declaration makes the second draft of the first. -/
inductive Step (d : Draft) : Draft → Prop
  | declare {e : Draft} {name : String} {isUnion ignoresTag : Bool} :
    d.declare name isUnion ignoresTag = .ok e → Step d e
  | addField {e : Draft} {owner name spelling : String} {annotations : Entries} :
    d.addField owner name spelling annotations = .ok e → Step d e

/-- The drafts that declarations lead to. -/
inductive Drafted : Draft → Prop
  | empty : Drafted {}
  | step {d e : Draft} : Drafted d → Step d e → Drafted e

/-- The fields of each type have different names. -/
def HasDistinctFields (d : Draft) : Prop := ∀ t ∈ d.types, (t.fields.map (·.name)).Nodup

/-! ### One declaration -/

/-- A type starts without fields. -/
theorem distinct_declare (h : d.HasDistinctFields) {name : String} {isUnion ignoresTag : Bool}
    (eq : d.declare name isUnion ignoresTag = .ok e) : e.HasDistinctFields := by
  unfold declare at eq
  split at eq
  · cases eq
  · cases eq
    intro t ht
    rcases List.mem_append.mp ht with ht | ht
    · exact h t ht
    · rw [List.mem_singleton.mp ht]
      exact List.nodup_nil

/-- What is checked is the first type with the owner's name. -/
theorem lacks_of_checkField {owner field : String} (h : d.checkField owner field = .ok ()) :
    ∃ t, d.type? owner = some t ∧ field ∉ t.fields.map (·.name) := by
  unfold checkField at h
  split at h
  · cases h
  · rename_i t found
    refine ⟨t, found, fun mem => ?_⟩
    obtain ⟨f, hf, rfl⟩ := List.mem_map.mp mem
    have there : (t.field? f.name).isSome = true := List.find?_isSome.mpr ⟨f, hf, by simp⟩
    rw [if_pos there] at h
    cases h

theorem addField_eq_ok {owner name spelling : String} {annotations : Entries}
    (h : d.addField owner name spelling annotations = .ok e) :
    d.checkField owner name = .ok () ∧
      ∃ f : Field, f.name = name ∧ f.type = .ofText f.spelling ∧ e = d.withField owner f := by
  unfold addField at h
  split at h
  · cases h
  · rcases check : d.checkField owner name with f | ⟨⟩
    · rw [check] at h
      cases h
    · rcases read : Annotations.ofEntries annotations with f | a
      · rw [check, read] at h
        cases h
      · rw [check, read] at h
        cases h
        exact ⟨rfl, _, rfl, rfl, rfl⟩

/-! ### Types -/

/-- The types have different names, so the first with a name is the only one. -/
def HasDistinctTypes (d : Draft) : Prop := (d.types.map (·.name)).Nodup

theorem distinctTypes_declare (h : d.HasDistinctTypes) {name : String} {isUnion ignoresTag : Bool}
    (eq : d.declare name isUnion ignoresTag = .ok e) : e.HasDistinctTypes := by
  unfold declare at eq
  split at eq
  · cases eq
  · rename_i new
    cases eq
    rw [HasDistinctTypes, List.map_append, List.nodup_append]
    refine ⟨h, List.nodup_singleton _, ?_⟩
    intro s hs _ hname rfl
    rw [List.map_singleton, List.mem_singleton] at hname
    subst hname
    obtain ⟨t, ht, rfl⟩ := List.mem_map.mp hs
    have there : (d.type? t.name).isSome = true := List.find?_isSome.mpr ⟨t, ht, by simp⟩
    exact new (by simp [there])

theorem names_withField (d : Draft) (owner : String) (f : Field) :
    (d.withField owner f).types.map (·.name) = d.types.map (·.name) := by
  rw [withField, List.map_map]
  refine List.map_congr_left fun t _ => ?_
  simp only [Function.comp_apply]
  split <;> rfl

/-- A type with a name is the one that is found under it. -/
theorem type?_of_mem (h : d.HasDistinctTypes) {t : ObjectType} (ht : t ∈ d.types) :
    d.type? t.name = some t := by
  have there : (d.type? t.name).isSome = true := List.find?_isSome.mpr ⟨t, ht, by simp⟩
  obtain ⟨u, found⟩ := Option.isSome_iff_exists.mp there
  have name : u.name = t.name := by simpa using List.find?_some found
  rw [found, List.inj_on_of_nodup_map h (List.mem_of_find?_eq_some found) ht name]

/-! ### Any number of declarations -/

/-- One declaration keeps the names of types and of fields apart. -/
theorem Step.distinct (step : d.Step e) (types : d.HasDistinctTypes)
    (fields : d.HasDistinctFields) : e.HasDistinctTypes ∧ e.HasDistinctFields := by
  cases step with
  | declare eq => exact ⟨distinctTypes_declare types eq, distinct_declare fields eq⟩
  | addField eq =>
    obtain ⟨check, f, rfl, -, rfl⟩ := addField_eq_ok eq
    refine ⟨by rw [HasDistinctTypes, names_withField]; exact types, fun t ht => ?_⟩
    obtain ⟨u, hu, rfl⟩ := List.mem_map.mp ht
    split
    · rename_i owns
      obtain ⟨u', found, new⟩ := lacks_of_checkField check
      rw [← owns, type?_of_mem types hu] at found
      cases found
      rw [List.map_append, List.map_singleton, List.nodup_append]
      refine ⟨fields u hu, List.nodup_singleton _, ?_⟩
      rintro s hs _ hname rfl
      rw [List.mem_singleton.mp hname] at hs
      exact new hs
    · exact fields u hu

/-- Several fields are added one by one, up to the first that is refused. -/
theorem Drafted.addFields (h : d.Drafted) (owner : String)
    (fields : List (String × String × Entries)) : (d.addFields owner fields).1.Drafted := by
  induction fields generalizing d with
  | nil => exact h
  | cons field rest ih =>
    obtain ⟨name, spelling, annotations⟩ := field
    rw [Draft.addFields]
    split
    · rename_i eq
      exact ih (h.step (.addField eq))
    · exact h

theorem Drafted.distinct (h : d.Drafted) : d.HasDistinctTypes ∧ d.HasDistinctFields := by
  induction h with
  | empty => exact ⟨List.nodup_nil, fun t ht => nomatch ht⟩
  | step _ step ih => exact step.distinct ih.1 ih.2

/-- What is built has the types of the draft, the root first. -/
theorem build_eq_ok {root : String} {g : Graph} (built : d.build root = .ok g) :
    ∃ t, d.type? root = some t ∧ g = ⟨t, d.types.filter fun t => t.name ≠ root⟩ := by
  unfold build at built
  split at built
  · cases built
  · rename_i r found
    rcases checked : (d.types.forM fun t => t.fields.forM fun f => d.checkRef t.name f.type)
      with f | ⟨⟩
    · rw [checked] at built
      cases built
    · rw [checked] at built
      cases built
      exact ⟨r, found, rfl⟩

/-- In a schema that was built the fields of each type have different names. -/
theorem distinct_of_build (h : d.Drafted) {root : String} {g : Graph}
    (built : d.build root = .ok g) : ∀ t ∈ g.types, (t.fields.map (·.name)).Nodup := by
  intro t ht
  refine h.distinct.2 t ?_
  obtain ⟨r, found, rfl⟩ := build_eq_ok built
  rcases List.mem_cons.mp ht with rfl | ht
  · exact List.mem_of_find?_eq_some found
  · exact (List.mem_filter.mp ht).1

/-- In a schema that was built every type is known by its name. -/
theorem type?_of_build (h : d.Drafted) {root : String} {g : Graph}
    (built : d.build root = .ok g) {t : ObjectType} (ht : t ∈ g.types) :
    g.type? t.name = some t := by
  obtain ⟨r, found, rfl⟩ := build_eq_ok built
  have name : r.name = root := by simpa using List.find?_some found
  have others : HasDistinctTypes ⟨r :: d.types.filter fun t => t.name ≠ root⟩ := by
    rw [HasDistinctTypes, List.map_cons, List.nodup_cons]
    refine ⟨fun mem => ?_, h.distinct.1.sublist (List.filter_sublist.map _)⟩
    obtain ⟨u, hu, same⟩ := List.mem_map.mp mem
    exact of_decide_eq_true (List.mem_filter.mp hu).2 (same.trans name)
  exact type?_of_mem others ht

end DefinitionTree.Draft
