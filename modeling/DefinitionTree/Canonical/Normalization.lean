/-
DefinitionTree/Canonical/Normalization.lean

From the wire to canonical form.

A definition as read is walked from the top down, each value with the type the
schema declares for it.  A value is first decoded where it stands: sentinels
become the values they stand for, declared unions nest their variant under
its tag or drop the tag, undeclared unions show their tag as a field, texts
that name localized strings become references, and scalars at string types
become texts.  Then whatever stands there is walked in turn, and what came out
empty is left out, so that an absent value leaves no trace.  Values that no
type declares are walked all the same, and noted.

Decoding fails on a list or a mapping as the tag of a declared union, and on an
integer with too many digits where a text is made of it.

Decoding never puts more there than it was shown (`content_lt_of_visit`).
-/
import DefinitionTree.Canonical.Walk
import DefinitionTree.Element.Localized
import DefinitionTree.Settings.Basic
import DefinitionTree.Wire.Union

namespace DefinitionTree

open DefinitionTree.Tree

/-- What normalizing depends on. -/
structure Normalizer where
  graph : Graph
  lookup : Option Lookup := none
  settings : Settings := {}

namespace Normalizer

/-! ### One value -/

/-- Expands a declared union.  The tag becomes a part of the places below it, so it
has to be one that can be written. -/
def expand (n : Normalizer) (es : Entries) : Except Failure Tree := do
  let fs ← Wire.expand n.settings.ignoredTags es
  (((Entries.get? Wire.tagKey es).bind key?).getD .null).check
  return map fs

/-- Decodes a union: a declared one is expanded, any other one shows its tag. -/
def visitUnion (n : Normalizer) (type : Option TypeRef) (place : ElementId) (es : Entries) :
    Journal Tree :=
  if (n.graph.objectAt? type).any (·.isUnion) then Journal.of (n.expand es)
  else do
    Journal.note .debug .normalizing
      ("unexpected _T_ field in analytic instance. Path: " ++ place.fullName)
    Journal.of (map <$> Wire.expose es)

/-- Decodes a mapping. -/
def visitMap (n : Normalizer) (type : Option TypeRef) (place : ElementId) (es : Entries) :
    Journal Tree :=
  match Wire.sentinelOf? es with
  | some s => Journal.of (Wire.decodeAs s es)
  | none =>
    if Entries.has Wire.tagKey es then n.visitUnion type place es
    else return map es

/-- Decodes a text: it may refer to a localized string. -/
def visitText (n : Normalizer) (s : String) : Journal Tree := do
  match ← Localized.resolve n.settings.collectionStart n.lookup (text s) with
  | some (id, target) => return ref id target
  | none => return text s

/-- Decodes a scalar: at a string type it becomes a text. -/
def visitScalar (type : Option TypeRef) (t : Tree) : Except Failure Tree :=
  if type.any (·.isString) then text <$> t.toText else .ok t

/-- Decodes a value where it stands, but nothing inside it. -/
def decode (n : Normalizer) (type : Option TypeRef) (place : ElementId) : Tree → Journal Tree
  | .map es => n.visitMap type place es
  | .list ts => return list ts
  | .text s => n.visitText s
  | .ref id target => return ref id target
  | .null => return null
  | .bool b => Journal.of (visitScalar type (bool b))
  | .int i => Journal.of (visitScalar type (int i))
  | .float x => Journal.of (visitScalar type (float x))

/-- Decodes a value with the type of its place, and notes if there is none. -/
def visit (n : Normalizer) (type : Option TypeRef) (place : ElementId) (t : Tree) :
    Journal Tree := do
  -- where an instance's id ends the root type counts, whatever was declared
  let type := n.graph.typeAt type place
  Journal.noteIf type.isNone .debug .normalizing
    fun _ => "unexpected path in analytics type. Path: " ++ place.fullName
  n.decode type place t

/-! ### Decoding makes nothing larger -/

theorem content_items_le (t : Option Tree) (u : Nat) (h : ∀ v, t = some v → v.size ≤ u) :
    sizeItems (Wire.items t) ≤ u := by
  unfold Wire.items
  split
  · simp [sizeItems]
  · simp [sizeItems]
  · rename_i ts
    have := h _ rfl
    simp only [size] at this
    omega
  · rename_i v _ _
    have := h v rfl
    simp only [sizeItems]
    omega

theorem content_decodeAs_lt {s : Wire.Sentinel} {es : Entries} {t : Tree}
    (h : Wire.decodeAs s es = .ok t) : content t < size (map es) := by
  cases s with
  | null =>
    cases h
    exact size_pos (map es)
  | array =>
    cases h
    have := content_items_le (Entries.get? Wire.itemKey es) (sizeEntries es)
      fun v h => Entries.size_of_get? h
    simp only [content, size]
    omega
  | _ =>
    simp only [Wire.decodeAs] at h
    rcases written : (Wire.textIn es).toText with e | s <;> rw [written] at h
    · cases h
    · cases h
      exact size_pos (map es)

theorem content_expand_lt {ignored : List String} {es fs : Entries}
    (h : Wire.expand ignored es = .ok fs) : sizeEntries fs < size (map es) := by
  unfold Wire.expand at h
  split at h
  · simp at h
  · rename_i tag htag
    have le := Entries.sizeEntries_without_add_le htag
    have pos := size_pos tag
    split at h
    · simp at h
    · simp only [Except.ok.injEq] at h
      subst h
      split <;> simp only [sizeEntries, size] <;> omega

theorem content_expose_lt {es fs : Entries} (h : Wire.expose es = .ok fs) :
    sizeEntries fs < size (map es) := by
  unfold Wire.expose at h
  split at h
  · simp at h
  · rename_i tag htag
    have le := Entries.sizeEntries_without_add_le htag
    simp only [Except.ok.injEq] at h
    subst h
    have := Entries.sizeEntries_overlay_le [(Wire.exposedKey, tag)]
      (Entries.without [Wire.tagKey] es)
    simp only [sizeEntries, size] at this ⊢
    omega

theorem content_lt_of_visitUnion {n : Normalizer} {type : Option TypeRef} {place : ElementId}
    {es : Entries} {t : Tree} (h : (n.visitUnion type place es).outcome = .ok t) :
    content t < size (map es) := by
  unfold visitUnion at h
  split at h
  · rw [Journal.outcome_of, expand] at h
    rcases he : Wire.expand n.settings.ignoredTags es with e | fs
    · rw [he] at h
      cases h
    · rw [he] at h
      simp only [bind, Except.bind] at h
      split at h
      · cases h
      · cases h
        exact content_expand_lt he
  · rw [Journal.outcome_bind, Journal.outcome_note] at h
    rcases he : Wire.expose es with e | fs
    · rw [he] at h
      cases h
    · rw [he] at h
      cases h
      exact content_expose_lt he

theorem content_lt_of_visitText {n : Normalizer} {s : String} {t : Tree}
    (h : (n.visitText s).outcome = .ok t) : content t = 0 := by
  unfold visitText at h
  rw [Journal.outcome_bind] at h
  rcases hr : (Localized.resolve n.settings.collectionStart n.lookup (text s)).outcome
    with e | r
  · simp [hr, bind, Except.bind] at h
  · rcases r with - | ⟨id, target⟩ <;>
    · rw [hr] at h
      cases h
      rfl

theorem content_of_visitScalar {type : Option TypeRef} {t u : Tree} (scalar : content t = 0)
    (h : visitScalar type t = .ok u) : content u = 0 := by
  unfold visitScalar at h
  split at h
  · rcases written : t.toText with e | s <;> rw [written] at h
    · cases h
    · cases h
      rfl
  · cases h
    exact scalar

theorem content_lt_of_decode {n : Normalizer} {type : Option TypeRef} {place : ElementId}
    {t u : Tree} (h : (n.decode type place t).outcome = .ok u) : content u < t.size := by
  cases t with
  | map es =>
    simp only [decode, visitMap] at h
    split at h
    · exact content_decodeAs_lt h
    · split at h
      · exact content_lt_of_visitUnion h
      · cases h
        simp only [content, size]
        omega
  | list ts =>
    cases h
    simp only [content, size]
    omega
  | text s =>
    rw [content_lt_of_visitText h]
    exact size_pos _
  | ref id target => cases h; exact size_pos _
  | null => cases h; exact size_pos _
  | _ =>
    rw [decode, Journal.outcome_of] at h
    rw [content_of_visitScalar rfl h]
    exact size_pos _

theorem content_lt_of_visit {n : Normalizer} {type : Option TypeRef} {place : ElementId}
    {t u : Tree} (h : (n.visit type place t).outcome = .ok u) : content u < t.size := by
  unfold visit at h
  rw [Journal.outcome_bind, Journal.outcome_noteIf] at h
  exact content_lt_of_decode h

/-! ### Whole definitions -/

/-- Normalizing as a visit of each value. -/
def visitor (n : Normalizer) : Visitor := ⟨n.visit, fun _ _ _ _ => content_lt_of_visit⟩

/-- The canonical form of a value of a type at a place. -/
def walk (n : Normalizer) (type : Option TypeRef) (place : ElementId) (t : Tree) :
    Journal Tree :=
  n.visitor.walk n.graph type place t

/-- The canonical form of a definition at a place, if anything is left of it. -/
def normalize (n : Normalizer) (place : ElementId) (t : Tree) : Journal (Option Tree) := do
  let u ← n.walk (some n.graph.rootRef) place t
  return if u.isEmpty then none else some u

end Normalizer

end DefinitionTree
