/-
DefinitionTree/Canonical/Placeholder.lean

Placeholders: the values that missing fields get.

A field with a default gets the default.  Otherwise a list gets the sentinel
of a list, and a scalar, or a union that keeps its tag, the sentinel of an
absent value.  An object gets the placeholders of its fields, unless all of
them are empty: then it is absent as a whole.

Types may contain themselves.  The names of the types that may still be opened
are passed down, and a type that is open already counts as absent inside
itself; so the construction ends.
-/
import DefinitionTree.Schema.Graph
import DefinitionTree.Wire.Sentinel

namespace DefinitionTree

/-- A placeholder, and whether it holds nothing: an object made only of such
placeholders is absent as a whole. -/
structure Placeholder where
  value : Tree
  isEmpty : Bool
deriving Repr, Inhabited

namespace Placeholder

/-- The placeholder of a scalar. -/
def absent : Placeholder := ⟨Wire.nullSentinel, true⟩

/-- The placeholder of a list. -/
def emptyList : Placeholder := ⟨Wire.bareArray, true⟩

/-- A default as a placeholder. -/
def ofDefault (t : Tree) : Placeholder := ⟨t, Wire.isEmptySentinel t⟩

/-- The placeholder of an object whose fields have these placeholders. -/
def ofFields (fields : List (String × Placeholder)) : Placeholder :=
  if fields.all fun f => f.2.isEmpty then absent
  else ⟨.map (fields.map fun f => (.text f.1, f.2.value)), false⟩

end Placeholder

namespace Graph

/-- The placeholder of a type.  `closed` names the object types that may still
be opened. -/
def placeholderIn (g : Graph) (closed : List String) (type : TypeRef) : Placeholder :=
  match type with
  | .primitive _ => .absent
  | .list _ => .emptyList
  | .named name =>
    match g.type? name with
    | none => .absent
    | some t =>
      if t.keepsTag then .absent
      else if h : name ∈ closed then
        have : (closed.erase name).length < closed.length := by
          rw [List.length_erase_of_mem h]
          exact Nat.sub_one_lt (Nat.ne_of_gt (List.length_pos_of_mem h))
        .ofFields ((t.fields.filter fun f => !f.annotations.isOmitted).map fun f =>
          (f.name, match f.annotations.default? with
            | some d => .ofDefault d
            | none => g.placeholderIn (closed.erase name) f.type))
      else .absent
termination_by closed.length

/-- The names of all object types. -/
def typeNames (g : Graph) : List String := g.types.map (·.name)

/-- The placeholder of a type. -/
def placeholder (g : Graph) (type : TypeRef) : Placeholder := g.placeholderIn g.typeNames type

/-- The value that a missing field gets. -/
def fieldPlaceholder (g : Graph) (f : Field) : Placeholder :=
  match f.annotations.default? with
  | some d => .ofDefault d
  | none => g.placeholder f.type

end Graph

end DefinitionTree
