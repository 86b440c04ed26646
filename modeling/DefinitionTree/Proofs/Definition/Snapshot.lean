/-
DefinitionTree/Proofs/Definition/Snapshot.lean

Which elements a lookup can find.

While the hook runs the elements change, and each kind is fetched with a lookup
among the elements that are there by then.  But all that is ever looked up is
string collections, by a full name of four segments.  No instance and no type of a
kind can have such a name, whatever full stops stand in its own, so lookups that
differ in these alone resolve all texts alike.

Main definitions and statements:

* `Hooks.unrelated`: the elements that belong to no kind;
* `Hooks.not_hasName_of_isInstanceOf`, `Hooks.not_hasName_of_isTypeOf`: no other one is
  taken for a collection;
* `Hooks.fetchInstance_unrelated`: a fetch among all elements and one among these.
-/
import DefinitionTree.Proofs.Canonical.Lookup
import DefinitionTree.Proofs.Definition.Rerun
import DefinitionTree.Proofs.Element.Localized

namespace DefinitionTree

/-! ### Names that are cut into few segments -/

namespace Text

theorem dot_notMem_of_length_cut {cs : List Char} (one : (cut cs).length ≤ 1) : '.' ∉ cs := by
  intro mem
  obtain ⟨front, back, rfl⟩ := List.append_of_mem mem
  have := length_cut_pos front
  have := length_cut_pos back
  rw [length_cut_append] at one
  omega

/-- A name that is cut into as many segments as it was put together from is cut into
just these. -/
theorem cut_join_of_length_le {ss : List (List Char)} (ne : ss ≠ [])
    (few : (cut (join ss)).length ≤ ss.length) : cut (join ss) = ss := by
  refine cut_join ne fun s mem => ?_
  induction ss with
  | nil => cases mem
  | cons t rest ih =>
    rcases rest with - | ⟨u, rest⟩
    · rw [List.mem_singleton.mp mem]
      exact dot_notMem_of_length_cut few
    · have first := length_cut_pos t
      have others := length_le_length_cut_join (u :: rest)
      rw [join_cons (by simp), length_cut_append, List.length_cons] at few
      rcases List.mem_cons.mp mem with rfl | mem
      · exact dot_notMem_of_length_cut (by omega)
      · exact ih (by simp) (by omega) mem

end Text

/-! ### Names of collections -/

namespace Localized

/-- A text names a collection without full stops. -/
theorem dot_notMem_of_localized {start collection string : String} {t : Tree}
    (h : Wire.localized? start t = some (collection, string)) : '.' ∉ collection.toList := by
  cases t with
  | text s => exact (dot_notMem_of_splitLocalized h).1
  | _ => cases h

/-- The full name of a collection is cut into four segments. -/
theorem cut_collectionId {collection : String} (noDot : '.' ∉ collection.toList) :
    Text.cut (collectionId collection).fullName.toList
      = [ElementId.netsuite.toList, collectionType.toList, ElementId.instanceId.toList,
        collection.toList] := by
  have segments : (collectionId collection).segments
      = [ElementId.netsuite, collectionType, ElementId.instanceId, collection] := rfl
  rw [ElementId.fullName, Text.dotted, String.toList_ofList, segments]
  refine Text.cut_join (by simp) fun s mem => ?_
  simp only [List.map_cons, List.map_nil, List.mem_cons, List.not_mem_nil, or_false] at mem
  rcases mem with rfl | rfl | rfl | rfl
  · decide
  · decide
  · decide
  · exact noDot

/-- The two lookups find the same collections. -/
def FindAlike (l l' : Lookup) : Prop :=
  ∀ name : String, '.' ∉ name.toList →
    l.get? (collectionId name).fullName = l'.get? (collectionId name).fullName

/-- Lookups that find the same collections resolve all texts alike. -/
theorem FindAlike.resolve {l l' : Lookup} (alike : FindAlike l l') (start : String) (t : Tree) :
    resolve start (some l) t = resolve start (some l') t := by
  unfold Localized.resolve
  rcases named : Wire.localized? start t with - | ⟨collection, string⟩
  · rfl
  · have same : collection? l collection = collection? l' collection := by
      rw [collection?, collection?, alike collection (dot_notMem_of_localized named)]
    simp only [same]

end Localized

open Localized (FindAlike collectionId collectionType)

/-- A fetch goes by the collections alone that its lookup finds. -/
theorem fetchInstance_of_findAlike {l l' : Lookup} (alike : FindAlike l l') (settings : Settings)
    (kind : Kind) (i : Instance) :
    fetchInstance settings (some l) kind i = fetchInstance settings (some l') kind i := by
  have visit : Normalizer.visit ⟨kind.schema, some l, settings⟩
      = Normalizer.visit ⟨kind.schema, some l', settings⟩ := by
    funext type place t
    rw [Normalizer.visit, Normalizer.visit]
    cases t with
    | text s =>
      simp only [Normalizer.decode, Normalizer.visitText, alike.resolve]
    | _ => rfl
  have normalize (place : ElementId) (t : Tree) :
      Normalizer.normalize ⟨kind.schema, some l, settings⟩ place t
        = Normalizer.normalize ⟨kind.schema, some l', settings⟩ place t := by
    simp only [Normalizer.normalize, Normalizer.walk, Normalizer.visitor, visit]
  rw [fetchInstance, fetchInstance]
  simp only [canonicalDefinition, normalize]

namespace Hooks

variable {kind : Kind} {e : Element} {es : List Element}

/-! ### Elements that belong to no kind -/

/-- The elements that are neither instances nor types of any kind. -/
def unrelated (es : List Element) : List Element :=
  es.filter fun e => Kind.all.all fun kind => !isTypeOf kind e && !e.isInstanceOf kind.name

theorem unrelated_eq_others (es : List Element) :
    unrelated es = others .dataset (others .workbook es) := by
  rw [unrelated, others, others, List.filter_filter]
  refine List.filter_congr fun e _ => ?_
  simp [Kind.all, Bool.and_comm]

@[simp] theorem unrelated_append (es fs : List Element) :
    unrelated (es ++ fs) = unrelated es ++ unrelated fs := List.filter_append ..

@[simp] theorem unrelated_unrelated (es : List Element) : unrelated (unrelated es) = unrelated es := by
  rw [unrelated, unrelated, List.filter_filter]
  exact List.filter_congr fun e _ => Bool.and_self _

/-- An instance of a kind is not called like a collection. -/
theorem not_hasName_of_isInstanceOf (here : e.isInstanceOf kind.name = true) {name : String}
    (noDot : '.' ∉ name.toList) : e.hasName (collectionId name).fullName = false := by
  rcases e with text | t | i
  · cases here
  · cases here
  · refine Bool.eq_false_iff.mpr fun called => ?_
    have same : i.id.fullName = (collectionId name).fullName := by
      simpa [Element.hasName, Element.id?] using called
    have cut := Localized.cut_collectionId noDot
    -- both names have four segments, so they are made of the same ones
    have segments : i.id.segments = [i.adapter, i.typeName, ElementId.instanceId, i.name] := rfl
    rw [← same, ElementId.fullName, Text.dotted, String.toList_ofList, segments] at cut
    have few := congrArg List.length cut
    rw [Text.cut_join_of_length_le (by simp) (Nat.le_of_eq few)] at cut
    have typeName : i.typeName = collectionType := by
      have second := (List.cons.inj (List.cons.inj cut).2).1
      exact String.toList_inj.mp second
    have kindName : i.typeName = kind.name := by simpa [Element.isInstanceOf] using here
    rw [kindName] at typeName
    cases kind
    · exact absurd typeName (by decide)
    · exact absurd typeName (by decide)

/-- A type of a kind is not called like a collection. -/
theorem not_hasName_of_isTypeOf (here : isTypeOf kind e = true) {name : String}
    (noDot : '.' ∉ name.toList) : e.hasName (collectionId name).fullName = false := by
  rcases e with text | t | i
  · cases here
  · refine Bool.eq_false_iff.mpr fun called => ?_
    have same : t.id.fullName = (collectionId name).fullName := by
      simpa [Element.hasName, Element.id?] using called
    have cut := Localized.cut_collectionId noDot
    have segments : t.id.segments = [ElementId.netsuite, t.name] := rfl
    rw [← same, ElementId.fullName, Text.dotted, String.toList_ofList, segments] at cut
    -- what follows the adapter starts like the type, and not like a collection
    have behind : Text.cut t.name.toList
        = [collectionType.toList, ElementId.instanceId.toList, name.toList] := by
      have first : '.' ∉ ElementId.netsuite.toList := by decide
      have both := (Text.cut_append first t.name.toList).symm.trans cut
      exact (List.cons.inj both).2
    have text := Text.join_cut t.name.toList
    rw [behind, Text.join_cons (by simp)] at text
    have starts : kind.name.toList <+: t.name.toList := List.isPrefixOf_iff_prefix.mp here
    have starts' : collectionType.toList <+: t.name.toList := by
      rw [← text]
      exact List.prefix_append ..
    rcases List.prefix_or_prefix_of_prefix starts starts' with short | short
    · cases kind
      · exact absurd short (by decide)
      · exact absurd short (by decide)
    · cases kind
      · exact absurd short (by decide)
      · exact absurd short (by decide)
  · cases here

/-- A collection is looked up among all elements as among those that belong to no
kind. -/
theorem find_unrelated (es : List Element) {name : String} (noDot : '.' ∉ name.toList) :
    (unrelated es).find? (Element.hasName (collectionId name).fullName)
      = es.find? (Element.hasName (collectionId name).fullName) := by
  rw [unrelated, List.find?_filter]
  refine congrArg (fun p => es.find? p) (funext fun e => ?_)
  rcases called : e.hasName (collectionId name).fullName with - | -
  · simp
  · have free (kind : Kind) : isTypeOf kind e = false ∧ e.isInstanceOf kind.name = false := by
      constructor
      · refine Bool.eq_false_iff.mpr fun here => ?_
        rw [not_hasName_of_isTypeOf here noDot] at called
        cases called
      · refine Bool.eq_false_iff.mpr fun here => ?_
        rw [not_hasName_of_isInstanceOf here noDot] at called
        cases called
    simp [free]

/-- Where the same elements belong to no kind, instances are fetched alike. -/
theorem fetchInstance_unrelated {fs : List Element} (same : unrelated es = unrelated fs)
    (store : Option Store) (settings : Settings) (kind : Kind) (i : Instance) :
    fetchInstance settings (some ⟨es, store⟩) kind i
      = fetchInstance settings (some ⟨fs, store⟩) kind i := by
  refine fetchInstance_of_findAlike (fun name noDot => ?_) settings kind i
  rw [Lookup.get?, Lookup.get?, ← find_unrelated es noDot, same, find_unrelated fs noDot]

end Hooks

end DefinitionTree
