/-
DefinitionTree/Proofs/Canonical/Overlong.lean

Integers that are too long to be read.

A text that spells an integer is read as that integer wherever an element holds
it, even if it was written as a text.  If it has too many digits the element is
not read at all, and nothing that holds the element is.  So of a canonical value
whose scalars are too long in this sense nothing comes back.

Here it does not matter what comes back of the others, and so the passage that
this is about carries nothing.

Main definitions and statements:

* `Tree.isTooLong`: the scalars that are too long;
* `Passage.shortens`: what was read holds none that are.
-/
import DefinitionTree.Proofs.Canonical.Mapping
import DefinitionTree.Proofs.Tree.Leaves
import DefinitionTree.Proofs.Xml.Scalar
import DefinitionTree.Proofs.Xml.Sentinel

namespace DefinitionTree

open Xml

/-! ### Scalars that are too long -/

/-- The text of the scalar spells an integer with more digits than are read. -/
def Tree.isTooLong (t : Tree) : Bool := isOverlong (heldText t.scalarText)

/-! ### Elements that are read -/

variable {name : String} {w : Tree}

/-- What an element holds is not too long if the element is read. -/
theorem isOverlong_of_read {n : Node} {attributes : List (String × String)} {children : List Node}
    {text : String} (eq : n = .element name attributes children text) (read : n.read = .ok w) :
    isOverlong (heldText text) = false := by
  subst eq
  rw [Node.read] at read
  have legible := (exists_readElement_iff (exists_addAll_iff children)).mp ⟨w, read⟩
  have readable := legible.2.2
  rw [isReadable, Bool.and_eq_true, Bool.not_eq_true'] at readable
  exact readable.2

/-- What is read without a sentinel is not too long. -/
theorem isTooLong_of_bare {t : Tree} (noMap : t.isMap = false) (read : reread name t = .ok w) :
    t.isTooLong = false := by
  obtain ⟨node, written, read⟩ := bind_eq_ok_iff.mp read
  rw [elementOf_bare noMap] at written
  obtain ⟨text, eq, rfl⟩ := map_eq_ok_iff.mp written
  obtain ⟨-, rfl⟩ := Tree.toText_eq_ok_iff.mp eq
  exact isOverlong_of_read rfl read

/-- A scalar that is read is not too long, whether it has a sentinel or not. -/
theorem isTooLong_of_reread {t : Tree} (scalar : t.key?.isSome = true)
    (read : reread name (Wire.wrap t) = .ok w) : t.isTooLong = false := by
  have marked (s : Wire.Sentinel) (text : String)
      (read : reread name (.map [s.mark, (Wire.textKey, .text text)]) = .ok w) :
      isOverlong (heldText text) = false := by
    have attributes : attributesOf [s.mark, (Wire.textKey, .text text)]
        = .ok [("type", s.name)] := attributesOf_mark s rfl
    rw [reread, elementOf, attributes, childrenOf_marked] at read
    exact isOverlong_of_read rfl read
  cases t with
  | map => cases scalar
  | list => cases scalar
  | text s =>
    rw [Wire.wrap] at read
    split at read
    · exact marked _ s read
    · exact isTooLong_of_bare (t := .text s) rfl read
  | bool b => exact marked _ _ read
  | null => exact isTooLong_of_bare rfl read
  | int i => exact isTooLong_of_bare rfl read
  | float x => exact isTooLong_of_bare rfl read
  | ref id target => exact isTooLong_of_bare rfl read

/-- The entries are all read where they stand. -/
def AreReread (ws : Entries) : Prop :=
  ∀ e ∈ ws, ∃ s u, isName s.toList = true ∧ reread s e.2 = .ok u

/-- Every child of a mapping that is read is read itself. -/
theorem areReread_of_map {es : Entries} (named : isName name.toList = true) (some_ : es ≠ [])
    (children : ∀ e ∈ es, IsChild e) (distinct : (keysOf es).Nodup)
    (read : reread name (.map es) = .ok w) : AreReread es := by
  obtain ⟨fs, reads, -⟩ := (reread_map named some_ children distinct).mp read
  clear some_ distinct read
  induction reads with
  | nil => exact fun _ he => nomatch he
  | cons here _ ih =>
    obtain ⟨this, others⟩ := List.forall_mem_cons.mp children
    refine List.forall_mem_cons.mpr ⟨?_, ih others⟩
    obtain ⟨-, s, eq, read⟩ := here
    obtain ⟨⟨s', eq', isName⟩, -⟩ := this
    cases eq.symm.trans eq'
    exact ⟨s, _, isName, read⟩

/-! ### The passage that carries nothing -/

/-- Every scalar is let in, and every name of markup. -/
def Admission.named : Admission where
  leaf _ t := t.IsScalar
  name s := isName s.toList = true
  isScalar h := h

namespace Passage

theorem ne_list_wrap {t : Tree} (h : t.IsScalar) (ts : List Tree) : Wire.wrap t ≠ .list ts := by
  cases t with
  | text s =>
    rw [Wire.wrap]
    split <;> simp
  | bool b => simp [Wire.wrap]
  | int i => simp [Wire.wrap]
  | float x => simp [Wire.wrap]
  | _ => exact h.elim

/-- Anything that is no list is sent, and nothing arrives. -/
def sink (n : Normalizer) : Passage n .named where
  carries _ _ := False
  takes t := ∀ ts, t ≠ .list ts
  takes_leaf := ne_list_wrap
  takes_mark _ := by simp
  takes_array _ _ := by simp [Wire.arraySentinel]
  takes_tag _ := ne_list_wrap trivial
  takes_map _ _ _ := by simp
  leaf _ carries := carries.elim
  mark _ carries := carries.elim
  array _ _ carries := carries.elim
  tag _ carries := carries.elim
  map _ _ _ carries := carries.elim

variable {n : Normalizer} {restore : Field → Tree} {name : String} {w : Tree}

/-- What can be sent becomes children. -/
theorem isChild_of_entry {e : Key × Tree}
    (h : (∃ s, e.1 = .text s ∧ (e.1 = Wire.tagKey ∨ IsPlainName s ∧ Admission.named.name s))
      ∧ (sink n).takes e.2) : IsChild e := by
  obtain ⟨⟨s, eq, tag | ⟨-, named⟩⟩, noList⟩ := h
  · exact ⟨⟨"_T_", tag, by decide⟩, noList⟩
  · exact ⟨⟨s, eq, named⟩, noList⟩

/-! ### What was read holds nothing too long -/

/-- Nothing in the value is too long if what is written of it is read. -/
structure Shortens (n : Normalizer) (t : Tree) : Prop where
  held : ∀ {k type name w}, n.Canonical .named (some k) type t → isName name.toList = true →
    reread name (n.wireOf (some k) (n.graph.completed type t)) = .ok w →
    ¬t.Holds (·.isTooLong = true)
  free : ∀ {es held type}, t = .map es → n.Canonical .named held type t →
    n.graph.keepsTagAt type = false → AreReread (n.wired held type es) →
    ¬t.Holds (·.isTooLong = true)

theorem shortens_leaf {t : Tree} (scalar : t.key?.isSome = true) : Shortens n t := by
  refine ⟨fun {k type name w} canonical named read => ?_, fun eq => by subst eq; cases scalar⟩
  have isScalar : t.IsScalar := Normalizer.canonical_leaf scalar canonical
  have plain : Localized.render t = t := by
    cases t with
    | ref => exact isScalar.elim
    | _ => rfl
  rw [Graph.completed_leaf scalar, Normalizer.wireOf, Wire.encodeAt_scalar scalar,
    plain] at read
  rw [Tree.holds_leaf_iff scalar, isTooLong_of_reread scalar read]
  decide

/-- A list is read item by item. -/
theorem shortens_items {type : Option TypeRef} {ts us : List Tree} {index : Nat}
    (ih : ∀ t ∈ ts, Shortens n t) (canonical : n.CanonicalItems .named type index ts)
    (reads : List.Forall₂ (fun t u => reread "_ITEM_" t = .ok u)
      (Wire.encodeItems n.settings.discriminatedKeys index (ts.map (n.graph.completed type))) us) :
    ∀ t ∈ ts, ¬t.Holds (·.isTooLong = true) := by
  induction ts generalizing index us with
  | nil => simp
  | cons t ts ihs =>
    obtain ⟨here, there⟩ := List.forall_mem_cons.mp ih
    obtain ⟨first, rest⟩ := canonical
    rw [List.map_cons, Wire.encodeItems] at reads
    cases reads with
    | cons read more =>
      exact List.forall_mem_cons.mpr
        ⟨here.held first (by decide) read, ihs there rest more⟩

theorem shortens_list {ts : List Tree} (ih : ∀ t ∈ ts, Shortens n t) : Shortens n (.list ts) := by
  refine ⟨fun {k type name w} canonical named read => ?_, fun eq => nomatch eq⟩
  obtain ⟨some_, items⟩ := canonical
  rw [wireOf_list items, reread_array named (encodeItems_ne_nil some_)] at read
  obtain ⟨us, reads, -⟩ := read
  rw [Tree.holds_list_iff]
  rintro ⟨t, ht, holds⟩
  exact shortens_items ih items reads t ht holds

/-- A mapping is read entry by entry. -/
theorem shortens_entries {es : Entries} {held : Option Key} {type : Option TypeRef}
    (ih : ∀ e ∈ es, Shortens n e.2)
    (canonical : n.CanonicalEntries .named (n.heldInside held type) type es)
    (keeps : n.graph.keepsTagAt type = false) (reads : AreReread (n.wired held type es)) :
    ¬(Tree.map es).Holds (·.isTooLong = true) := by
  rw [Tree.holds_map_iff]
  rintro ⟨e, he, holds⟩
  obtain ⟨s, u, named, read⟩ := reads _
    (List.mem_map_of_mem (List.mem_append_left _ (List.mem_map_of_mem he)))
  have inside := (Normalizer.canonicalEntries_iff.mp canonical e he).2
  obtain ⟨k, eq⟩ := exists_heldInside keeps held e.1
  rw [eq] at inside
  simp only [eq] at read
  exact (ih e he).held inside named read holds

section Mapping

variable (faithful : (sink n).IsFaithful restore) {es : Entries} {k : Key}
  {type : Option TypeRef} (ih : ∀ e ∈ es, Shortens n e.2) (fits : n.Fits (some k) type es)
  (canonical : n.CanonicalEntries .named (n.heldInside (some k) type) type es)

/-- The entries of a mapping that was sent are read if the mapping is. -/
theorem areReread_of_sent {ws : Entries} (some_ : ws ≠ [])
    (sent : (keysOf ws).Nodup ∧ ∀ e ∈ ws, (∃ s, e.1 = .text s ∧
      (e.1 = Wire.tagKey ∨ IsPlainName s ∧ Admission.named.name s)) ∧ (sink n).takes e.2)
    (named : isName name.toList = true) (read : reread name (.map ws) = .ok w) : AreReread ws :=
  areReread_of_map named some_ (fun e he => isChild_of_entry (sent.2 e he)) sent.1 read

include faithful ih fits canonical in
/-- At a union that keeps its tag the variant is read. -/
theorem shortens_variant (keeps : n.graph.keepsTagAt type = true)
    (named : isName name.toList = true)
    (read : reread name (n.wireOf (some k) (n.graph.completed type (.map es))) = .ok w) :
    ¬(Tree.map es).Holds (·.isTooLong = true) := by
  obtain ⟨s, inner, rfl, -, noShown, -⟩ := fits.variant keeps
  obtain ⟨⟨s', eq, plain, name⟩, inside, -⟩ := canonical
  cases eq
  rw [Normalizer.heldInside_variant keeps] at inside
  have open_ := faithful.orderly.keepsTagAt_fieldType keeps (.text s)
  have settles := (sink n).settles faithful (.map inner)
  have sent := (settles.admitted inner _ rfl inside open_).tagged ((sink n).takes_tag name)
  rw [written_variant faithful keeps (shows_of_keepsTagAt fits keeps) plain noShown inside.1
    inside.2] at read
  have reads := areReread_of_sent (List.cons_ne_nil _ _) sent named read
  have clean := (ih _ List.mem_cons_self).free rfl inside open_
    fun e he => reads e (List.mem_cons_of_mem _ he)
  rw [Tree.holds_map_iff]
  rintro ⟨e, he, holds⟩
  rw [List.mem_singleton.mp he] at holds
  exact clean holds

include faithful ih fits canonical in
/-- At a type that keeps no tag the entries of a mapping are read, be it behind a tag or
not. -/
theorem shortens_mapping (keeps : n.graph.keepsTagAt type = false)
    (named : isName name.toList = true)
    (read : reread name (n.wireOf (some k) (n.graph.completed type (.map es))) = .ok w) :
    ¬(Tree.map es).Holds (·.isTooLong = true) := by
  have admitted := admitted_wired faithful (fun e _ => (sink n).settles faithful e.2) canonical
    keeps fits
  -- it is enough that each entry was read where it was sent
  refine shortens_entries ih canonical keeps ?_
  by_cases discriminates : n.discriminates k = true
  · obtain ⟨s, rfl, known⟩ := text_of_discriminates discriminates
    rw [written_discriminated faithful canonical keeps fits rfl discriminates] at read
    have reads := areReread_of_sent (List.cons_ne_nil _ _)
      (admitted.tagged ((sink n).takes_tag (faithful.names s known))) named read
    exact fun e he => reads e (List.mem_cons_of_mem _ he)
  have shows : n.discriminates k = false := by simpa using discriminates
  by_cases mem : Wire.exposedKey ∈ keysOf es
  · obtain ⟨pre, x, post, split, written⟩ :=
      written_exposed faithful canonical keeps fits rfl shows mem
    rw [written] at read
    rw [split] at admitted ⊢
    have reads := areReread_of_sent (List.cons_ne_nil _ _)
      (admitted.erase.tagged (admitted.taken (Wire.exposedKey, x) (by simp))) named read
    obtain ⟨first, rest⟩ := List.forall_mem_cons.mp reads
    obtain ⟨front, back⟩ := List.forall_mem_append.mp rest
    exact List.forall_mem_append.mpr ⟨front, List.forall_mem_cons.mpr ⟨first, back⟩⟩
  · rw [written_untagged faithful canonical keeps fits rfl shows
      (exposedKey_notMem_full faithful mem)] at read
    refine areReread_of_sent ?_ ⟨admitted.plain.distinct, admitted.entry⟩ named read
    simpa [Normalizer.wired] using Normalizer.full_ne_nil fits.nonempty

end Mapping

/-- Nothing that is too long is read, whatever holds it. -/
theorem shortens (faithful : (sink n).IsFaithful restore) (t : Tree) : Shortens n t := by
  induction t using Tree.induct with
  | leaf t scalar => exact shortens_leaf scalar
  | list ts ih => exact shortens_list ih
  | map es ih =>
    refine ⟨fun {k type name w} canonical named read => ?_, ?_⟩
    · obtain ⟨fits, entries⟩ := canonical
      by_cases keeps : n.graph.keepsTagAt type = true
      · exact shortens_variant faithful ih fits entries keeps named read
      · exact shortens_mapping faithful ih fits entries (by simpa using keeps) named read
    · rintro _ held type ⟨⟩ ⟨-, entries⟩ keeps reads
      exact shortens_entries ih entries keeps reads

end Passage

end DefinitionTree
