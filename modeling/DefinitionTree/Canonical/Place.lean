/-
DefinitionTree/Canonical/Place.lean

Places in a definition and their declared types.

The path of a value inside an instance is an element id: the instance's id
with the keys that lead to the value.  The value at depth four, right where an
instance's id ends, is the definition itself, so it has the schema's root type
whatever it was taken for.
-/
import DefinitionTree.Schema.Graph
import DefinitionTree.Tree.Shown

namespace DefinitionTree

/-- The depth of an instance's id. -/
def rootDepth : Nat := 4

/-- The type of a value, given its place and the type it was taken for. -/
def Graph.typeAt (g : Graph) (type : Option TypeRef) (place : ElementId) : Option TypeRef :=
  if place.depth = rootDepth then some g.rootRef else type

/-- The place of the entry with this key. -/
def ElementId.entry (place : ElementId) (k : Key) : ElementId := place.nested [k.plain]

/-- The place of the item with this index. -/
def ElementId.item (place : ElementId) (index : Nat) : ElementId :=
  place.nested [String.ofList (Numeral.digits index)]

end DefinitionTree
