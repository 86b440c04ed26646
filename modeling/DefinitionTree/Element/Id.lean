/-
DefinitionTree/Element/Id.lean

Element ids: dotted names such as `netsuite.workbook.instance.custworkbook1`.

A type id has no name parts and leaves its id type out of the full name; an
instance id ends in the instance's name and, below it, the keys that lead to a
place inside the instance's value.  `ofFullName?` reads the full name back by
position, which is exact as long as no part holds a full stop.

Main definitions:

* `ElementId.fullName`, `ElementId.ofFullName?`: writing and reading;
* `ElementId.nested`: the id of a place one key further down;
* `ElementId.depth`: how many segments the full name has.
-/
import DefinitionTree.Text.Dotted

namespace DefinitionTree

/-- The identifier of an element, or of a place inside one. -/
structure ElementId where
  adapter : String
  typeName : String
  idType : String := "type"
  parts : List String := []
deriving DecidableEq, Repr, Inhabited

namespace ElementId

/-- The adapter that owns every definition. -/
def netsuite : String := "netsuite"

/-- The id type of types. -/
def typeId : String := "type"

/-- The id type of instances. -/
def instanceId : String := "instance"

/-! ### Full names -/

/-- The segments of the full name.  A type id without parts has two. -/
def segments (i : ElementId) : List String :=
  i.adapter :: i.typeName ::
    (if i.idType = typeId ∧ i.parts = [] then [] else i.idType :: i.parts)

theorem segments_ne_nil (i : ElementId) : i.segments ≠ [] := by simp [segments]

/-- The dotted name of an element. -/
def fullName (i : ElementId) : String := Text.dotted i.segments

/-- The id with the given segments; at least an adapter and a type name are
needed. -/
def ofSegments? : List String → Option ElementId
  | a :: t :: [] => some ⟨a, t, typeId, []⟩
  | a :: t :: k :: parts => some ⟨a, t, k, parts⟩
  | _ => none

/-- The id with the given full name. -/
def ofFullName? (s : String) : Option ElementId := ofSegments? (Text.segments s)

/-- How many segments the full name has, counting the full stops inside parts. -/
def depth (i : ElementId) : Nat := (Text.segments i.fullName).length

/-! ### Parts -/

/-- The instance's name, or the type's name where there is no instance. -/
def name (i : ElementId) : String := i.parts.head?.getD i.typeName

/-- The id of a place inside: more parts at the end. -/
def nested (i : ElementId) (parts : List String) : ElementId :=
  { i with parts := i.parts ++ parts }

/-- The id of the whole element that a place belongs to. -/
def topLevelParent (i : ElementId) : ElementId :=
  { i with parts := if i.idType = typeId then [] else i.parts.take 1 }

/-- The id of an instance. -/
def ofInstance (adapter typeName name : String) : ElementId :=
  ⟨adapter, typeName, instanceId, [name]⟩

/-- The id of a type. -/
def ofType (name : String) : ElementId := ⟨netsuite, name, typeId, []⟩

end ElementId

end DefinitionTree
