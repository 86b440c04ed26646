/-
DefinitionTree/Proofs/Element/Localized.lean

Texts that name localized strings, and the references they become.

A text is cut at its only full stop, and what stands on its two sides may be the
id of any collection and of any string in it.  The reference is taken apart at
all its full stops, which gives the two ids back; but there they only count as
names if they are words.  So a text comes back from its reference exactly if it
is made of two words, and otherwise the full name of the reference is written in
its place.

Main definitions and statements:

* `Localized.NamedByWords`: the texts that come back;
* `Localized.exists_of_resolve`: the reference that a text becomes;
* `Localized.names?_stringId`: what the reference names;
* `Localized.text_eq_iff_of_resolve`: when the text comes back.
-/
import DefinitionTree.Element.Localized

namespace DefinitionTree

/-! ### Segments -/

namespace Text

theorem dot_notMem_of_mem_cut {cs s : List Char} (h : s ∈ cut cs) : '.' ∉ s := by
  induction cs generalizing s with
  | nil =>
    rw [List.mem_singleton.mp h]
    exact List.not_mem_nil
  | cons c cs ih =>
    by_cases dot : c = '.'
    · rw [cut, if_pos dot] at h
      rcases List.mem_cons.mp h with rfl | h
      · exact List.not_mem_nil
      · exact ih h
    · obtain ⟨t, rest, eq⟩ := List.exists_cons_of_ne_nil (cut_ne_nil cs)
      rw [eq] at ih
      rw [cut, if_neg dot, eq] at h
      rcases List.mem_cons.mp h with rfl | h
      · have := ih List.mem_cons_self
        simp [Ne.symm dot, this]
      · exact ih (List.mem_cons_of_mem _ h)

/-- No segment holds a full stop. -/
theorem dot_notMem_of_mem_segments {s t : String} (h : t ∈ segments s) : '.' ∉ t.toList := by
  obtain ⟨cs, there, rfl⟩ := List.mem_map.mp h
  rw [String.toList_ofList]
  exact dot_notMem_of_mem_cut there

end Text

namespace Localized

variable {start s collection string : String}

/-! ### Texts that name a string -/

/-- The text resolves to a reference. -/
def Resolves (start : String) (lookup : Lookup) (s : String) : Prop :=
  ∃ found, (resolve start (some lookup) (.text s)).outcome = .ok (some found)

/-- The collection and the string that the text names are called by words. -/
def NamedByWords (start s : String) : Prop :=
  ∃ collection string, Wire.splitLocalized start s = some (collection, string) ∧
    isWordText collection = true ∧ isWordText string = true

/-- A text names what stands on both sides of its only full stop. -/
theorem segments_of_splitLocalized (h : Wire.splitLocalized start s = some (collection, string)) :
    Text.segments s = [collection, string] := by
  unfold Wire.splitLocalized at h
  split at h
  · split at h
    · rename_i segments
      cases h
      exact segments
    · cases h
  · cases h

/-- A text that names a collection and a string is made of the two, with a full stop
between them. -/
theorem eq_of_splitLocalized (h : Wire.splitLocalized start s = some (collection, string)) :
    s = collection ++ "." ++ string := by
  rw [← Text.dotted_segments s, segments_of_splitLocalized h]
  simp [Text.dotted, Text.join, String.append_assoc]

/-- Neither of them holds a full stop. -/
theorem dot_notMem_of_splitLocalized
    (h : Wire.splitLocalized start s = some (collection, string)) :
    '.' ∉ collection.toList ∧ '.' ∉ string.toList := by
  have segments := segments_of_splitLocalized h
  exact ⟨Text.dot_notMem_of_mem_segments (by rw [segments]; simp),
    Text.dot_notMem_of_mem_segments (by rw [segments]; simp)⟩

theorem namedByWords_iff (h : Wire.splitLocalized start s = some (collection, string)) :
    NamedByWords start s ↔ isWordText collection = true ∧ isWordText string = true := by
  constructor
  · rintro ⟨_, _, named, words⟩
    rw [h] at named
    cases named
    exact words
  · exact fun words => ⟨_, _, h, words⟩

/-! ### The reference to a string -/

/-- The full name of a reference is cut into what it was put together from. -/
theorem segments_stringId (noDots : '.' ∉ collection.toList ∧ '.' ∉ string.toList) :
    Text.segments (stringId collection string).fullName
      = [ElementId.netsuite, collectionType, ElementId.instanceId, collection, "strings", "string",
        string, "scriptid"] := by
  refine Text.segments_dotted (ElementId.segments_ne_nil _) fun s mem => ?_
  simp [stringId, collectionId, ElementId.nested, ElementId.ofInstance, ElementId.segments,
    ElementId.instanceId, ElementId.typeId] at mem
  rcases mem with rfl | rfl | rfl | rfl | rfl | rfl | rfl | rfl
  · decide
  · decide
  · decide
  · exact noDots.1
  · decide
  · decide
  · exact noDots.2
  · decide

/-- The id of a string in a collection names the two if they are words, and nothing
otherwise. -/
theorem names?_stringId (noDots : '.' ∉ collection.toList ∧ '.' ∉ string.toList) :
    names? (stringId collection string)
      = if isWordText collection && isWordText string then some (collection, string) else none := by
  simp only [names?, segments_stringId noDots]
  simp [isLast]

/-- The text of the id of a string in a collection is the two if they are words, and its
full name otherwise. -/
theorem text_stringId (noDots : '.' ∉ collection.toList ∧ '.' ∉ string.toList) :
    text (stringId collection string)
      = if isWordText collection && isWordText string then collection ++ "." ++ string
        else (stringId collection string).fullName := by
  rw [text, names?_stringId noDots]
  by_cases words : (isWordText collection && isWordText string) = true
  · rw [if_pos words, if_pos words]
  · rw [if_neg words, if_neg words]

/-! ### From the text to the reference and back -/

variable {lookup : Option Lookup} {id : ElementId} {target : Tree}

/-- What a text resolves to is the reference to the string it names. -/
theorem exists_of_resolve
    (h : (resolve start lookup (.text s)).outcome = .ok (some (id, target))) :
    ∃ collection string, Wire.splitLocalized start s = some (collection, string) ∧
      id = stringId collection string := by
  have named : Wire.localized? start (.text s) = Wire.splitLocalized start s := rfl
  unfold resolve at h
  rw [named] at h
  rcases split_ : Wire.splitLocalized start s with - | ⟨collection, string⟩
  · rw [split_] at h
    cases h
  · rw [split_] at h
    refine ⟨collection, string, rfl, ?_⟩
    rcases lookup with - | lookup
    · cases h
    · simp only at h
      split at h
      · cases h
      · split at h
        · cases h
        · cases h
          rfl

/-- A text that was made of words comes back from its reference. -/
theorem text_of_resolve
    (h : (resolve start lookup (.text s)).outcome = .ok (some (id, target)))
    (words : NamedByWords start s) : text id = s := by
  obtain ⟨collection, string, named, rfl⟩ := exists_of_resolve h
  obtain ⟨isCollection, isString⟩ := (namedByWords_iff named).mp words
  rw [text_stringId (dot_notMem_of_splitLocalized named), isCollection, isString, Bool.and_self,
    if_pos rfl, eq_of_splitLocalized named]

/-- A text that resolves comes back from its reference exactly if it was made of
words, for then alone the reference is known to be one to a localized string.
What comes back otherwise is the full name of the reference. -/
theorem text_eq_iff_of_resolve
    (h : (resolve start lookup (.text s)).outcome = .ok (some (id, target))) :
    ((names? id).isSome = true ↔ NamedByWords start s) ∧
      (text id = s ↔ NamedByWords start s) ∧
      (¬NamedByWords start s → text id = id.fullName) := by
  obtain ⟨collection, string, named, rfl⟩ := exists_of_resolve h
  have noDots := dot_notMem_of_splitLocalized named
  have other : ¬NamedByWords start s →
      text (stringId collection string) = (stringId collection string).fullName := by
    intro none
    rw [namedByWords_iff named, ← Bool.and_eq_true] at none
    rw [text_stringId noDots, if_neg none]
  refine ⟨?_, ⟨fun same => Classical.byContradiction fun none => ?_, text_of_resolve h⟩, other⟩
  · rw [names?_stringId noDots, namedByWords_iff named, ← Bool.and_eq_true]
    by_cases words : (isWordText collection && isWordText string) = true
    · rw [if_pos words]
      exact iff_of_true rfl words
    · rw [if_neg words]
      exact iff_of_false nofun words
  · -- the full name has more segments than the text
    have segments := segments_stringId noDots
    rw [← other none, same, segments_of_splitLocalized named] at segments
    cases segments

/-- A lookup that finds one collection with one string. -/
def oneString (collection string : String) : Lookup where
  working := [.instance (Localized.collection collection
    [(.text "strings", .map [(.text "string", .map [(.text string, .map [
      (.text "scriptid", .text string)])])])])]

/-- A text made of words comes back. -/
theorem text_greeting :
    ∃ id target, (resolve "custcollectiontranslations"
        (some (oneString "custcollectiontranslations_a" "greeting"))
        (.text "custcollectiontranslations_a.greeting")).outcome = .ok (some (id, target)) ∧
      (names? id).isSome = true ∧ text id = "custcollectiontranslations_a.greeting" := by
  have words : NamedByWords "custcollectiontranslations" "custcollectiontranslations_a.greeting" :=
    ⟨"custcollectiontranslations_a", "greeting", by decide, by decide, by decide⟩
  have resolved : (resolve "custcollectiontranslations"
      (some (oneString "custcollectiontranslations_a" "greeting"))
      (.text "custcollectiontranslations_a.greeting")).outcome
        = .ok (some (stringId "custcollectiontranslations_a" "greeting", .text "greeting")) := rfl
  obtain ⟨known, same, -⟩ := text_eq_iff_of_resolve resolved
  exact ⟨_, _, resolved, known.mpr words, same.mpr words⟩

/-- A text with a hyphen resolves, and does not come back. -/
theorem text_hyphenated :
    ∃ id target, (resolve "custcollectiontranslations"
        (some (oneString "custcollectiontranslations-a" "greeting"))
        (.text "custcollectiontranslations-a.greeting")).outcome = .ok (some (id, target)) ∧
      names? id = none ∧
      text id = "netsuite.translationcollection.instance.custcollectiontranslations-a" ++
        ".strings.string.greeting.scriptid" ∧
      text id ≠ "custcollectiontranslations-a.greeting" := by
  have noDots : '.' ∉ "custcollectiontranslations-a".toList ∧ '.' ∉ "greeting".toList := by decide
  have noWords : (isWordText "custcollectiontranslations-a" && isWordText "greeting") = false := by
    decide
  have unknown : names? (stringId "custcollectiontranslations-a" "greeting") = none := by
    rw [names?_stringId noDots, noWords]
    rfl
  have written : text (stringId "custcollectiontranslations-a" "greeting")
      = "netsuite.translationcollection.instance.custcollectiontranslations-a" ++
        ".strings.string.greeting.scriptid" := by
    rw [text_stringId noDots, noWords, if_neg (by decide)]
    decide
  refine ⟨stringId "custcollectiontranslations-a" "greeting", .text "greeting", rfl, unknown,
    written, ?_⟩
  rw [written]
  decide

end Localized

end DefinitionTree
