/-
DefinitionTree/Proofs/Definition/Sendable.lean

Values that are to come back when they are deployed and fetched.

Such a value is well typed and lacks no defaults.  Its texts are those that an
element gives back, and the words for truth values stand only where a text is
declared.  Integers may have any number of digits here; which of them are too
long to be read is asked separately.

Main definitions and statements:

* `Kind.IsSendable`: the values of a kind that are to come back;
* `Graph.wellTyped_reads`: what is well typed and not too long can be read;
* `IsSendable.perm`: such a value is what stands outside of its definition, and
  what the definition holds.
-/
import DefinitionTree.Proofs.Canonical.Markup
import DefinitionTree.Proofs.Canonical.Overlong
import DefinitionTree.Proofs.Definition.Deploy

namespace DefinitionTree

open Xml

/-! ### Builtin types -/

namespace Primitive

/-- What a builtin type admits where markup is to bring it back. -/
def sends : Primitive → Tree → Bool
  | .string, .text s => isClean s
  | .serviceId, .text s => isClean s && !isTruthWord s
  | .unknown, .text s => isClean s && !isTruthWord s
  | .number, .int _ => true
  | .unknown, .int _ => true
  | .boolean, .bool _ => true
  | .unknown, .bool _ => true
  | _, _ => false

/-- What a builtin type admits where markup is to bring it back, and what is not too long
to be read. -/
def reads (p : Primitive) (t : Tree) : Bool := p.sends t && !t.isTooLong

theorem sends_null (p : Primitive) : p.sends .null = false := by cases p <;> rfl

theorem reads_bool (b : Bool) : Primitive.boolean.reads (.bool b) = true := by cases b <;> decide

end Primitive

/-- What is well typed and holds nothing that is too long can be read. -/
theorem Graph.wellTyped_reads {g : Graph} {type : Option TypeRef} {t : Tree}
    (h : g.WellTyped Primitive.sends type t) (short : ¬t.Holds (·.isTooLong = true)) :
    g.WellTyped Primitive.reads type t := by
  induction t using Tree.induct generalizing type with
  | leaf t scalar =>
    obtain ⟨p, type, sends⟩ := (wellTyped_leaf scalar).mp h
    rw [Tree.holds_leaf_iff scalar, Bool.not_eq_true] at short
    refine (wellTyped_leaf scalar).mpr ⟨p, type, ?_⟩
    rw [Primitive.reads, sends, short]
    rfl
  | list ts ih =>
    obtain ⟨some_, items⟩ := h
    refine ⟨some_, itemsTyped_iff.mpr fun t ht => ?_⟩
    exact ih t ht (itemsTyped_iff.mp items t ht) fun holds => short (.item ht holds)
  | map es ih =>
    obtain ⟨shape, entries⟩ := h
    refine ⟨shape, entriesTyped_iff.mpr fun e he => ?_⟩
    obtain ⟨declared, typed⟩ := entriesTyped_iff.mp entries e he
    exact ⟨declared, ih e he typed fun holds => short (.entry he holds)⟩

/-! ### What is let in -/

/-- An integer that is not too long is read as the number it is. -/
theorem digits_of_isTooLong {i : Int} (h : (Tree.int i).isTooLong = false) :
    (dropMinus (Numeral.ofInt i)).length ≤ Numeral.digitLimit := by
  have trimmed := (isClean_iff.mp (isClean_text i)).2.2
  have spelled : (Numeral.text i).toList = Numeral.ofInt i := String.toList_ofList
  have isTooLong : isOverlong (heldText (Numeral.text i)) = false := h
  rw [heldText_of_isClean (isClean_text i), isOverlong, dropLineEnd_of_trim trimmed, spelled,
    (ofInt_facts i).1, Bool.true_and] at isTooLong
  simpa using isTooLong

theorem isOverlong_of_isTooLong {s : String} (clean : isClean s = true)
    (h : (Tree.text s).isTooLong = false) : isOverlong s.toList = false := by
  have isTooLong : isOverlong (heldText s) = false := h
  rwa [heldText_of_isClean clean] at isTooLong

namespace Kind

variable {kind : Kind}

/-- The names of all fields are names of markup, and no words for truth values. -/
theorem name_field (kind : Kind) : ∀ t ∈ kind.schema.types, ∀ f ∈ t.fields,
    isName f.name.toList = true ∧ isTruthWord f.name = false := by
  cases kind <;> decide

/-- What builtin types admit is let in where values are only written. -/
theorem letsIn_named (kind : Kind) : kind.normalizer.LetsIn .named Primitive.sends := by
  refine ⟨fun p t sends => ?_, fun t sends => ?_, fun t ht f hf => (kind.name_field t ht f hf).1⟩
  · cases p <;> cases t <;> first | exact trivial | cases sends
  · cases t <;> first | exact trivial | cases sends

/-- What builtin types admit and is not too long is let in where markup brings values
back. -/
theorem letsIn_markup (kind : Kind) : kind.normalizer.LetsIn .markup Primitive.reads := by
  have text {type : Option TypeRef} {s : String} (clean : isClean s = true)
      (short : (Tree.text s).isTooLong = false)
      (word : isTruthWord s = true → type.any (·.isString) = true) :
      Admission.markup.leaf type (.text s) :=
    ⟨⟨clean, isOverlong_of_isTooLong clean short⟩, word⟩
  have noWord {type : Option TypeRef} {s : String} (sends : (isClean s && !isTruthWord s) = true)
      (short : (Tree.text s).isTooLong = false) : Admission.markup.leaf type (.text s) := by
    rw [Bool.and_eq_true, Bool.not_eq_true'] at sends
    exact text sends.1 short fun word => absurd word (by rw [sends.2]; decide)
  have leaf (p : Primitive) (type : Option TypeRef) (t : Tree) (reads : p.reads t = true)
      (string : p = .string → type.any (·.isString) = true)
      (other : p ≠ .string → type.any (·.isString) = false) : Admission.markup.leaf type t := by
    rw [Primitive.reads, Bool.and_eq_true, Bool.not_eq_true'] at reads
    obtain ⟨sends, short⟩ := reads
    cases t with
    | text s =>
      cases p with
      | string => exact text sends short fun _ => string rfl
      | serviceId => exact noWord sends short
      | unknown => exact noWord sends short
      | number => cases sends
      | boolean => cases sends
    | bool b => trivial
    | int i =>
      refine ⟨digits_of_isTooLong short, other ?_⟩
      rintro rfl
      cases sends
    | _ => cases p <;> cases sends
  refine ⟨fun p t reads => leaf p _ t reads ?_ ?_,
    fun t reads => leaf .unknown _ t reads nofun fun _ => rfl, kind.name_field⟩
  · rintro rfl
    rfl
  · intro ne
    cases p <;> first | rfl | exact absurd rfl ne

end Kind

/-! ### Values that are to come back -/

/-- The entries of a value that its definition holds. -/
def innerEntries (value : Entries) : Entries := Entries.without (outerFields.map Key.text) value

/-- The value is to come back: it is no instance that was fetched, its name is a
text that markup can hold, its script id can be written, since it may name the
instance, and what its definition holds is well typed and lacks no defaults. -/
structure Kind.IsSendable (kind : Kind) (value : Entries) : Prop where
  distinct : (keysOf value).Nodup
  noDefinition : definitionKey ∉ keysOf value
  name : ∀ t, Entries.field? "name" value = some t →
    ∃ s, t = .text s ∧ s.toList.all isXmlChar = true
  scriptid : ∀ t, Entries.field? "scriptid" value = some t →
    t ≠ .null ∧ t.isWritable = true
  dependencies : Entries.field? "dependencies" value ≠ some .null
  typed : kind.schema.WellTyped Primitive.sends (some kind.schema.rootRef)
    (.map (innerEntries value))
  complete : kind.schema.HasDefaults kind.defaults (some kind.schema.rootRef)
    (.map (innerEntries value))

/-- Among what is written into the definition, the name included, is an integer
with too many digits. -/
def HoldsTooLong (value : Entries) : Prop :=
  (Tree.map (Entries.without (["scriptid", "dependencies"].map Key.text) value)).Holds
    (·.isTooLong = true)

theorem mem_presentEntry {s : String} {es : Entries} {e : Key × Tree}
    (h : e ∈ presentEntry s es) : e ∈ es ∧ e.1 = .text s := by
  unfold presentEntry at h
  split at h
  · cases h
  · rename_i t _ found
    cases List.mem_singleton.mp h
    exact ⟨Entries.mem_of_get? found, rfl⟩
  · cases h

theorem presentEntry_of_mem {s : String} {es : Entries} {t : Tree} (distinct : (keysOf es).Nodup)
    (present : Entries.field? s es ≠ some .null) (h : (Key.text s, t) ∈ es) :
    (Key.text s, t) ∈ presentEntry s es := by
  have found : Entries.field? s es = some t := Entries.get?_of_mem distinct h
  unfold presentEntry
  split
  · rename_i null
    exact absurd null present
  · rename_i found'
    cases found.symm.trans found'
    exact List.mem_singleton_self _
  · rename_i none
    cases found.symm.trans none

theorem mem_innerEntries {es : Entries} {e : Key × Tree} :
    e ∈ innerEntries es ↔ e ∈ es ∧ e.1 ∉ outerFields.map Key.text := Entries.mem_without_iff

namespace Kind.IsSendable

variable {kind : Kind} {value : Entries} (h : kind.IsSendable value)

include h in
/-- The value is what stands outside of its definition, and what the definition
holds. -/
theorem perm : (outerEntries value ++ innerEntries value).Perm value := by
  have outside (e : Key × Tree) (he : e ∈ outerEntries value) : e ∈ value ∧
      (e.1 = .text "name" ∨ e.1 = .text "scriptid" ∨ e.1 = .text "dependencies") := by
    rw [outerEntries, List.mem_append, List.mem_append] at he
    rcases he with (he | he) | he
    · exact ⟨(mem_presentEntry he).1, .inl (mem_presentEntry he).2⟩
    · exact ⟨(mem_presentEntry he).1, .inr (.inl (mem_presentEntry he).2)⟩
    · exact ⟨(mem_presentEntry he).1, .inr (.inr (mem_presentEntry he).2)⟩
  have outer : (keysOf (outerEntries value)).Nodup := by
    have all : [Key.text "name", .text "scriptid", .text "dependencies"].Nodup := by decide
    exact all.sublist (keysOf_outerEntries value)
  have inner : (keysOf (innerEntries value)).Nodup :=
    h.distinct.sublist (List.filter_sublist.map _)
  have distinct : (outerEntries value ++ innerEntries value).Nodup := by
    refine List.nodup_append.mpr ⟨outer.of_map _, inner.of_map _, ?_⟩
    rintro e he _ he' rfl
    have notOuter := (mem_innerEntries.mp he').2
    obtain ⟨-, name | scriptid | dependencies⟩ := outside e he
    · exact notOuter (by simp [name, outerFields])
    · exact notOuter (by simp [scriptid, outerFields])
    · exact notOuter (by simp [dependencies, outerFields])
  -- entries of different keys are different, so it is enough to compare members
  refine (List.perm_ext_iff_of_nodup distinct (h.distinct.of_map _)).mpr fun e => ?_
  rw [List.mem_append, mem_innerEntries]
  constructor
  · rintro (he | he)
    · exact (outside e he).1
    · exact he.1
  · intro he
    by_cases outer : e.1 ∈ outerFields.map Key.text
    · obtain ⟨k, t⟩ := e
      left
      rw [outerEntries, List.mem_append, List.mem_append]
      simp only [outerFields, List.map_cons, List.map_nil, List.mem_cons, List.not_mem_nil,
        or_false] at outer
      rcases outer with rfl | rfl | rfl | rfl
      · refine .inl (.inr (presentEntry_of_mem h.distinct (fun null => ?_) he))
        exact (h.scriptid _ null).1 rfl
      · refine .inl (.inl (presentEntry_of_mem h.distinct (fun null => ?_) he))
        obtain ⟨s, eq, -⟩ := h.name _ null
        cases eq
      · exact absurd (mem_keysOf he) h.noDefinition
      · exact .inr (presentEntry_of_mem h.distinct h.dependencies he)
    · exact .inr ⟨he, outer⟩

include h in
/-- What the definition holds goes behind what stands outside of it. -/
theorem overlay_eq : Entries.overlay (outerEntries value)
    (Entries.dropField "name" (innerEntries value))
      = outerEntries value ++ innerEntries value := by
  have noName : Key.text "name" ∉ keysOf (innerEntries value) := by
    intro mem
    obtain ⟨e, he, eq⟩ := List.mem_map.mp mem
    exact (mem_innerEntries.mp he).2 (by rw [eq]; decide)
  rw [Entries.dropField, Entries.without_eq_self noName]
  refine Entries.overlay_eq_append (fun k hk => ?_) ?_
  · obtain ⟨e, he, rfl⟩ := List.mem_map.mp hk
    obtain ⟨-, s, -, -, eq, -⟩ :=
      Graph.exists_field (Graph.entriesTyped_iff.mp h.typed.2 e he).1
    exact ⟨s, eq⟩
  · exact (h.perm.map Prod.fst).nodup_iff.mpr h.distinct

end Kind.IsSendable

end DefinitionTree
