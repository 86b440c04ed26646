/-
DefinitionTree/Definition/Name.lean

The name of a definition.

The name of an instance is written into its definition, too.  If its text is a
reference to a localized string, the definition names that string; any other
reference is written as its text, and everything else stays as it is.
-/
import DefinitionTree.Element.Localized

namespace DefinitionTree

/-- The key under which a definition names a localized string. -/
def localizedKey : Key := .text "translationScriptId"

/-- The text of a name: what stands under the key of element text in a mapping,
and the name itself otherwise. -/
def nameText? : Tree → Option Tree
  | .map es => Entries.get? Wire.textKey es
  | t => some t

/-- The name of an instance as its definition holds it. -/
def definitionName (name : Tree) : Tree :=
  match nameText? name, name with
  | some (.ref id _), name =>
    let text := .text (Localized.text id)
    if (Localized.names? id).isSome then .map [(localizedKey, text)]
    else
      match name with
      | .map es => .map (Entries.set Wire.textKey text es)
      | _ => text
  | _, name => name

end DefinitionTree
