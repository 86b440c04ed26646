/-
DefinitionTree/Xml/Doctype/Basic.lean

What a document type says about the content.

Of all that a document type may declare, two things bear on the content: which
attributes an element has by default, and which attributes hold words, so that
runs of spaces in them count as one.  Where declarations stand outside the
document and the document does not say that it stands alone, they are not
read, and an entity that is not known may be declared there.
-/
import DefinitionTree.Tree.Basic
import DefinitionTree.Wire.Sentinel
import DefinitionTree.Xml.StartTag

namespace DefinitionTree.Xml

/-! ### Rules -/

/-- What is declared of an attribute. -/
structure AttributeRule where
  element : String
  name : String
  /-- the value consists of words -/
  ofWords : Bool
  /-- the value where none is given -/
  default? : Option (List Char)
deriving DecidableEq, Repr

/-- What the start of a document says about the content. -/
structure Doctype where
  /-- the document says that it stands alone -/
  standalone : Bool := false
  /-- there are declarations outside the document -/
  isExtended : Bool := false
  /-- the declarations that follow are not read -/
  isSkipping : Bool := false
  /-- the rules for attributes, in order -/
  rules : List AttributeRule := []
deriving DecidableEq, Repr

/-! ### Values of attributes -/

/-- The words of a value, with one space between them. -/
def joinWords : List Char → List Char
  | [] => []
  | ' ' :: rest =>
    match joinWords rest with
    | [] => []
    | ' ' :: more => ' ' :: more
    | more => ' ' :: more
  | c :: rest => c :: joinWords rest

/-- The words of a value, with nothing around them and one space between. -/
def words (cs : List Char) : List Char := joinWords (cs.dropWhile (· == ' '))

/-- The value that a rule makes of the one that is written. -/
def AttributeRule.value (rule : AttributeRule) (cs : List Char) : List Char :=
  if rule.ofWords then words cs else cs

/-- The entry for an attribute. -/
def attributeEntry (name : String) (value : List Char) : Key × Tree :=
  (.text (Wire.attributeMark ++ name), .text (String.ofList value))

namespace Doctype

/-- An entity that is not known may be declared outside the document. -/
def isHidden (d : Doctype) : Bool := d.isExtended && !d.standalone

/-- The rule for an attribute. -/
def rule? (d : Doctype) (element name : String) : Option AttributeRule :=
  d.rules.find? fun r => r.element = element && r.name = name

/-- Adds a rule.  The first rule for an attribute counts. -/
def addRule (d : Doctype) (rule : AttributeRule) : Doctype :=
  if (d.rule? rule.element rule.name).isSome then d else { d with rules := d.rules ++ [rule] }

/-- The value of an attribute. -/
def value (d : Doctype) (element name : String) (cs : List Char) : List Char :=
  match d.rule? element name with
  | some rule => rule.value cs
  | none => cs

/-- The attributes of a start tag as entries: those that are written, then
those that the element has by default. -/
def attributes (d : Doctype) (tag : StartTag) : Entries :=
  tag.attributes.reverse.map (fun (name, cs) => attributeEntry name (d.value tag.name name cs))
    ++ d.rules.filterMap fun rule =>
      if rule.element = tag.name && (tag.attributes.lookup rule.name).isNone then
        rule.default?.map (attributeEntry rule.name)
      else none

end Doctype

end DefinitionTree.Xml
