/-
DefinitionTree/Schema/Description.lean

The description of a schema as a tree: the name of its root, and every object
type with its flags and fields, the root first.  A field is described by the
spelling of its type and by the annotations that were given.

A description holds no number that is infinite or none at all; in a default,
null is shown for it.
-/
import DefinitionTree.Schema.Graph

namespace DefinitionTree

/-- An entry under a text key. -/
def entry (name : String) (t : Tree) : Key × Tree := (.text name, t)

/-- An entry that is there only if its value is. -/
def optionalEntry (name : String) (t : Option Tree) : Entries :=
  match t with
  | some t => [entry name t]
  | none => []

/-- The tree of a value that may be null. -/
def Tree.ofOption {α : Type} (f : α → Tree) (a : Option α) : Tree := (a.map f).getD .null

mutual

/-- A default as a description shows it. -/
def Tree.described : Tree → Tree
  | .float (.infinite _) => .null
  | .float .nan => .null
  | .list ts => .list (describedItems ts)
  | .map es => .map (describedEntries es)
  | t => t

/-- The items of a default as a description shows them. -/
def Tree.describedItems : List Tree → List Tree
  | [] => []
  | t :: rest => t.described :: Tree.describedItems rest

/-- The entries of a default as a description shows them. -/
def Tree.describedEntries : Entries → Entries
  | [] => []
  | (k, t) :: rest => (k, t.described) :: Tree.describedEntries rest

end

/-- The description of a restriction. -/
def Restriction.describe (r : Restriction) : Tree :=
  .map (optionalEntry "values" (r.values.map (Tree.ofOption fun vs => .list (vs.map .text)))
    ++ optionalEntry "regex" (r.regex.map (Tree.ofOption .text))
    ++ optionalEntry "max_length" (r.maxLength.map (Tree.ofOption .int)))

/-- The description of the annotations that were given. -/
def Annotations.describe (a : Annotations) : Entries :=
  optionalEntry "default_value" (a.default?.map Tree.described)
    ++ optionalEntry "omit_on_reconstruct" (a.omitted?.map .bool)
    ++ optionalEntry "required" (a.required?.map .bool)
    ++ optionalEntry "is_attribute" (a.attribute?.map .bool)
    ++ optionalEntry "restriction" (a.restriction?.map (Tree.ofOption Restriction.describe))

/-- The description of a field. -/
def Field.describe (f : Field) : Tree :=
  .map (entry "type" (.text f.spelling) :: f.annotations.describe)

/-- The description of an object type. -/
def ObjectType.describe (t : ObjectType) : Tree :=
  .map [entry "is_tagged_union" (.bool t.isUnion), entry "ignore_discriminator" (.bool t.ignoresTag),
    entry "fields" (.map (t.fields.map fun f => entry f.name f.describe))]

/-- The description of a schema. -/
def Graph.describe (g : Graph) : Tree :=
  .map [entry "root" (.text g.root.name),
    entry "types" (.map (g.types.map fun t => entry t.name t.describe))]

end DefinitionTree
