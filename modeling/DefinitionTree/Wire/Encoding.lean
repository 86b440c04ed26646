/-
DefinitionTree/Wire/Encoding.lean

From a completed tree back to the wire.

No schema is needed here.  Each entry of a mapping and each item of a list is
first put back into the shape of a union where it is one, a reference becomes
its text, and then lists, truth values and texts that read as numbers get their
sentinels.  Inside a mapping that is already a sentinel, and under the keys of
attributes and of element text, nothing is wrapped.  What stands there is then
encoded in turn.

The mark of a discriminated key is all that a collapse adds, which is why the
encoding ends (`sizeEntries_collapseEntries_le`).
-/
import DefinitionTree.Element.Localized
import DefinitionTree.Wire.Union

namespace DefinitionTree.Wire

open DefinitionTree.Tree

/-! ### Collapsing adds one leaf at most -/

theorem sizeEntries_markedVariant_le {es inner : Entries} {tag : Tree}
    (h : markedVariant? es = some (tag, inner)) :
    tag.size + sizeEntries inner ≤ sizeEntries es := by
  unfold markedVariant? at h
  split at h
  · rename_i k₁ t₁ k₂ t₂
    split at h
    · split at h
      · cases h
        simp only [sizeEntries, size]
        omega
      · simp at h
    · split at h
      · split at h
        · cases h
          simp only [sizeEntries, size]
          omega
        · simp at h
      · simp at h
  · simp at h

theorem size_ofKey (k : Key) : (ofKey k).size = 1 := by
  cases k <;> rfl

theorem sizeEntries_collapseEntries_le (discriminated : List String) (k : Key) (es : Entries) :
    sizeEntries (collapseEntries discriminated k es) ≤ sizeEntries es + 1 := by
  unfold collapseEntries
  split
  · have := Entries.sizeEntries_without_le [tagKey] es
    simp only [sizeEntries, size_ofKey]
    omega
  · split
    · rename_i tag htag
      have le := Entries.sizeEntries_without_add_le htag
      have := Entries.sizeEntries_overlay_le [(tagKey, tag)] (Entries.without [exposedKey] es)
      simp only [sizeEntries] at this
      omega
    · split
      · rename_i tag inner hm
        have le := sizeEntries_markedVariant_le hm
        have := Entries.sizeEntries_overlay_le [(tagKey, tag)] inner
        simp only [sizeEntries] at this
        omega
      · omega

/-! ### Encoding -/

/-- The key holds raw text: that of an attribute, or the text of an element. -/
def isRawKey : Key → Bool
  | .text s => startsWith attributeMark s || .text s = textKey
  | _ => false

/-- The mapping says itself what type it has. -/
def isTyped (es : Entries) : Bool := Entries.has typeKey es

/-- A scalar or a reference in the form it has under a key. -/
def encodeScalar (wraps : Bool) (t : Tree) : Tree :=
  let t := Localized.render t
  if wraps then wrap t else t

mutual

/-- The value held under a key, encoded; `wraps` says whether it gets a
sentinel where it needs one. -/
def encodeAt (discriminated : List String) (wraps : Bool) (k : Key) (t : Tree) : Tree :=
  match t with
  | .map es =>
    have := sizeEntries_collapseEntries_le discriminated k es
    let es := collapseEntries discriminated k es
    -- what the mapping says of its own type, it says after the collapse
    .map (encodeEntries discriminated (!isTyped es) es)
  | .list ts =>
    let ts := encodeItems discriminated 0 ts
    if wraps then arraySentinel ts else .list ts
  | t => encodeScalar wraps t
termination_by 2 * t.size
decreasing_by
  · simp only [size]
    omega
  · simp only [size]
    omega

/-- The items of a list, encoded, from an index on. -/
def encodeItems (discriminated : List String) (index : Nat) (ts : List Tree) : List Tree :=
  match ts with
  | [] => []
  | t :: rest =>
    encodeAt discriminated true (.int index) t :: encodeItems discriminated (index + 1) rest
termination_by 2 * sizeItems ts + 1
decreasing_by
  all_goals
    have := size_pos t
    simp only [sizeItems]
    omega

/-- The entries of a mapping, encoded; `wraps` says whether the mapping is none
that says its own type. -/
def encodeEntries (discriminated : List String) (wraps : Bool) (es : Entries) : Entries :=
  match es with
  | [] => []
  | (k, t) :: rest =>
    (k, encodeAt discriminated (wraps && !isRawKey k) k t)
      :: encodeEntries discriminated wraps rest
termination_by 2 * sizeEntries es + 1
decreasing_by
  all_goals
    have := size_pos t
    simp only [sizeEntries]
    omega

end

/-- The wire form of a tree. -/
def encode (discriminated : List String) : Tree → Tree
  | .map es => .map (encodeEntries discriminated (!isTyped es) es)
  | .list ts => .list (encodeItems discriminated 0 ts)
  | t => Localized.render t

end DefinitionTree.Wire
