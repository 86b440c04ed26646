/-
DefinitionTree/Schema/Graph.lean

Schemas of definitions.

A schema is a graph of object types.  Fields refer to types by name, so types
may refer to each other.  An object type may be a tagged union; if it also
ignores its tag, the tag is dropped in canonical form instead of nesting the
variant under it.

Main definitions:

* `Field`, `ObjectType`, `Graph`: the model;
* `Graph.object?`: the object type that a reference stands for;
* `Graph.fieldType`, `Graph.itemType`: the declared type of a mapping's entry
  and of a list's items.
-/
import DefinitionTree.Schema.TypeRef
import DefinitionTree.Tree.Basic

namespace DefinitionTree

/-! ### Annotations

An annotation that was given is kept even if it says nothing new, because a
description repeats what was given. -/

/-- A restriction of a field's values.  It describes and is not enforced. -/
structure Restriction where
  values : Option (Option (List String)) := none
  regex : Option (Option String) := none
  maxLength : Option (Option Int) := none
deriving Repr, Inhabited

/-- The annotations of a field. -/
structure Annotations where
  default? : Option Tree := none
  omitted? : Option Bool := none
  required? : Option Bool := none
  attribute? : Option Bool := none
  restriction? : Option (Option Restriction) := none
deriving Repr, Inhabited

/-- The field is not put back when it is missing. -/
def Annotations.isOmitted (a : Annotations) : Bool := a.omitted?.getD false

/-! ### Types and graphs -/

/-- A field of an object type.  Its reference is kept as it was spelled, too. -/
structure Field where
  name : String
  type : TypeRef
  spelling : String := type.text
  annotations : Annotations := {}
deriving Repr, Inhabited

/-- An object type. -/
structure ObjectType where
  name : String
  fields : List Field
  isUnion : Bool := false
  ignoresTag : Bool := false
deriving Repr, Inhabited

namespace ObjectType

/-- A tagged union whose tag becomes the key of its variant. -/
def keepsTag (t : ObjectType) : Bool := t.isUnion && !t.ignoresTag

/-- The field with this name. -/
def field? (t : ObjectType) (name : String) : Option Field :=
  t.fields.find? fun f => f.name = name

/-- The element id of the type. -/
def id (t : ObjectType) : ElementId := .ofType t.name

end ObjectType

/-- A schema: the type of definitions, and the other types in the order of
their declaration. -/
structure Graph where
  root : ObjectType
  others : List ObjectType
deriving Repr, Inhabited

namespace Graph

/-- All object types, the root first. -/
def types (g : Graph) : List ObjectType := g.root :: g.others

/-- The object type with this name. -/
def type? (g : Graph) (name : String) : Option ObjectType :=
  g.types.find? fun t => t.name = name

/-- The object type that a reference stands for. -/
def object? (g : Graph) : TypeRef → Option ObjectType
  | .named name => g.type? name
  | _ => none

/-- The reference stands for something: a builtin type, a list, or an object
type of the schema. -/
def resolves (g : Graph) : TypeRef → Bool
  | .named name => (g.type? name).isSome
  | _ => true

/-- The reference to the root type. -/
def rootRef (g : Graph) : TypeRef := .named g.root.name

/-- The object type that a value is declared to have. -/
def objectAt? (g : Graph) (type : Option TypeRef) : Option ObjectType :=
  type.bind g.object?

/-- The declared type of the entry with this key, in a value of the given
type. -/
def fieldType (g : Graph) (type : Option TypeRef) (k : Key) : Option TypeRef :=
  match g.objectAt? type, k with
  | some t, .text name => (t.field? name).map (·.type)
  | _, _ => none

/-- The declared type of the items, in a value of the given type. -/
def itemType : Option TypeRef → Option TypeRef
  | some (.list item) => some item
  | _ => none

/-- The names of all fields, each with its owner. -/
def fieldNames (g : Graph) : List (String × String) :=
  g.types.flatMap fun t => t.fields.map fun f => (t.name, f.name)

end Graph

end DefinitionTree
