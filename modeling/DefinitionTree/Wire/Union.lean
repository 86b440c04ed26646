/-
DefinitionTree/Wire/Union.lean

Tagged unions on the wire and in canonical form.

On the wire a union is its variant's fields with the tag beside them,
`{_T_: tag, …}`.  In canonical form the fields stand under the tag,
`{tag: {…}}`; tags that carry no information are dropped; and the tag of a
union that no type declares is shown as a field, `{xmlType: tag, …}`.

`expand` and `expose` make the canonical forms, and `collapse` undoes all
three.
-/
import DefinitionTree.Wire.Sentinel

namespace DefinitionTree.Wire

/-! ### Towards canonical form -/

/-- The tag is one of these texts. -/
def isAmong (tag : Key) (names : List String) : Bool :=
  match tag with
  | .text s => names.contains s
  | _ => false

/-- The fields of a union under its tag, or alone if the tag is ignored.  The
tag has to be a scalar. -/
def expand (ignored : List String) (es : Entries) : Except Failure Entries :=
  match Entries.get? tagKey es with
  | none => .error (.unknownName "_T_")
  | some tag =>
    match tag.key? with
    | none => .error .compoundTag
    | some k =>
      let rest := Entries.without [tagKey] es
      .ok (if isAmong k ignored then rest else [(k, .map rest)])

/-- The fields of a union with its tag shown as a field in front.  A field of
that name takes the tag's place. -/
def expose (es : Entries) : Except Failure Entries :=
  match Entries.get? tagKey es with
  | none => .error (.unknownName "_T_")
  | some tag => .ok (Entries.overlay [(exposedKey, tag)] (Entries.without [tagKey] es))

/-! ### Back to the wire -/

/-- The fields of a single variant that is marked with a tag, and the tag. -/
def markedVariant? : Entries → Option (Tree × Entries)
  | [(k₁, t₁), (k₂, t₂)] =>
    if k₁.same tagKey then
      match t₂ with
      | .map inner => some (t₁, inner)
      | _ => none
    else if k₂.same tagKey then
      match t₁ with
      | .map inner => some (t₂, inner)
      | _ => none
    else none
  | _ => none

/-- The key is one of those whose values lost their tag, the key itself. -/
def isDiscriminated (discriminated : List String) (k : Key) : Bool := isAmong k discriminated

/-- The entries of a mapping that is held under a key, as a union on the wire:
the tag comes from a discriminated key, from the field that shows it, or from
the mark on a single variant, in this order of preference. -/
def collapseEntries (discriminated : List String) (k : Key) (es : Entries) : Entries :=
  if isDiscriminated discriminated k && (sentinelOf? es).isNone then
    -- a tag that is there already says less than the key
    (tagKey, Tree.ofKey k) :: Entries.without [tagKey] es
  else
    match Entries.get? exposedKey es with
    | some tag => Entries.overlay [(tagKey, tag)] (Entries.without [exposedKey] es)
    | none =>
      match markedVariant? es with
      | some (tag, inner) => Entries.overlay [(tagKey, tag)] inner
      | none => es

/-- The value held under a key, as a union on the wire if it is one. -/
def collapse (discriminated : List String) (k : Key) : Tree → Tree
  | .map es => .map (collapseEntries discriminated k es)
  | t => t

end DefinitionTree.Wire
