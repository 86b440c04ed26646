/-
DefinitionTree/Element/Localized.lean

References to localized strings.

Texts that differ from language to language are kept in string collections, and
a definition names one of them with the text `<collection>.<string>`.  Where the
collection is known and holds that string, the text becomes a reference to

    netsuite.translationcollection.instance.<collection>.strings.string.<string>.scriptid

and a reference of this form is written as that text again.  A text that
cannot be resolved stays a text, with a note.

Main definitions:

* `Localized.resolve`: from a text to a reference;
* `Localized.names?`, `Localized.text`: from a reference to a text.
-/
import DefinitionTree.Element.Instance
import DefinitionTree.Journal
import DefinitionTree.Text.Word
import DefinitionTree.Tree.Shown
import DefinitionTree.Wire.Shape

namespace DefinitionTree.Localized

/-- The type of string collections. -/
def collectionType : String := "translationcollection"

/-- A collection with this name and value. -/
def collection (name : String) (value : Entries) : Instance :=
  { name, typeName := collectionType, value }

/-! ### From text to reference -/

/-- The id of a collection. -/
def collectionId (collection : String) : ElementId :=
  .ofInstance ElementId.netsuite collectionType collection

/-- The id of a string in a collection. -/
def stringId (collection string : String) : ElementId :=
  (collectionId collection).nested ["strings", "string", string, "scriptid"]

/-- The entries of a mapping's field, if the field is a mapping. -/
def mapField? (name : String) (es : Entries) : Option Entries :=
  (Entries.field? name es).bind Tree.entries?

/-- The script id of a string in a collection's value. -/
def scriptId? (value : Entries) (string : String) : Option Tree :=
  match (mapField? "strings" value).bind (mapField? "string") with
  | none => none
  | some strings =>
    match (mapField? string strings).bind (Entries.field? "scriptid") with
    | some .null => none
    | t => t

/-- The collection with this name among the elements that are looked up. -/
def collection? (lookup : Lookup) (collection : String) : Option Instance :=
  (lookup.get? (collectionId collection).fullName).bind Element.instance?

/-- The id that a text refers to and the script id found there.  `start` is
what ids of collections start with. -/
def resolve (start : String) (lookup : Option Lookup) (t : Tree) :
    Journal (Option (ElementId × Tree)) :=
  match Wire.localized? start t, lookup with
  | some (collection, string), some lookup =>
    match collection? lookup collection with
    | none => do
      Journal.note .debug .resolving
        ("translation collection " ++ collection ++ " not found for " ++ t.shown)
      return none
    | some i =>
      match scriptId? i.value string with
      | none => do
        Journal.note .debug .resolving
          ("translation string " ++ string ++ " missing in collection " ++ collection)
        return none
      | some scriptId => return some (stringId collection string, scriptId)
  | _, _ => return none

/-! ### From reference to text -/

/-- The text consists of at least one word character and nothing else. -/
def isWordText (s : String) : Bool := !s.isEmpty && s.toList.all Text.isWord

/-- The segments that a reference to a localized string ends in.  A line
break after the last one is tolerated. -/
def isLast (s : String) : Bool := s = "scriptid" || s = "scriptid\n"

/-- The collection and the string that a reference names. -/
def names? (id : ElementId) : Option (String × String) :=
  match Text.segments id.fullName with
  | [adapter, type, kind, collection, strings, string, name, last] =>
    if adapter = ElementId.netsuite && type = collectionType && kind = ElementId.instanceId
        && strings = "strings" && string = "string" && isLast last
        && isWordText collection && isWordText name then
      some (collection, name)
    else none
  | _ => none

/-- The text of a reference: the collection and the string it names, or its
full name. -/
def text (id : ElementId) : String :=
  match names? id with
  | some (collection, string) => collection ++ "." ++ string
  | none => id.fullName

/-- A reference as a text, and any other tree as it is. -/
def render : Tree → Tree
  | .ref id _ => .text (text id)
  | t => t

end DefinitionTree.Localized
