/-
DefinitionTree/Wire/Shape.lean

The shapes of wire values.

Every tree has exactly one shape.  A mapping that is a sentinel has the
sentinel's shape even if it also carries a tag; otherwise a tag makes it a
union.  A text that names a localized string, `<collection>.<string>`, has a
shape of its own.
-/
import DefinitionTree.Text.Dotted
import DefinitionTree.Wire.Sentinel

namespace DefinitionTree.Wire

/-! ### Localized strings -/

/-- The text starts with the prefix. -/
def startsWith (start : String) (s : String) : Bool := start.toList.isPrefixOf s.toList

/-- The collection and the string that a text names: it starts like a
collection's id and has exactly one full stop. -/
def splitLocalized (start : String) (s : String) : Option (String × String) :=
  if startsWith start s then
    match Text.segments s with
    | [collection, string] => some (collection, string)
    | _ => none
  else none

/-- The collection and the string that a tree names. -/
def localized? (start : String) : Tree → Option (String × String)
  | .text s => splitLocalized start s
  | _ => none

/-! ### Shapes -/

/-- The kinds of nodes. -/
inductive NodeKind where
  | scalar
  | sequence
  | mapping
deriving DecidableEq, Repr

/-- The kind of a node. -/
def nodeKind : Tree → NodeKind
  | .map _ => .mapping
  | .list _ => .sequence
  | _ => .scalar

/-- The shapes of wire values. -/
inductive Shape where
  | sentinel (s : Sentinel)
  | taggedUnion
  | mapping
  | sequence
  | localizedString
  | scalar
deriving DecidableEq, Repr

/-- The tree is a mapping with a tag. -/
def hasTag : Tree → Bool
  | .map es => Entries.has tagKey es
  | _ => false

/-- The shape of a tree, where ids of string collections start so. -/
def shape (start : String) (t : Tree) : Shape :=
  match sentinel? t with
  | some s => .sentinel s
  | none =>
    if hasTag t then .taggedUnion
    else match nodeKind t with
      | .mapping => .mapping
      | .sequence => .sequence
      | .scalar => if (localized? start t).isSome then .localizedString else .scalar

/-- The name of a node kind. -/
def NodeKind.name : NodeKind → String
  | .scalar => "scalar"
  | .sequence => "sequence"
  | .mapping => "mapping"

/-- The name of a shape. -/
def Shape.name : Shape → String
  | .sentinel s => s.name ++ "_sentinel"
  | .taggedUnion => "tagged_union"
  | .mapping => "mapping"
  | .sequence => "sequence"
  | .localizedString => "translation_string"
  | .scalar => "scalar"

end DefinitionTree.Wire
