/-
DefinitionTree/Xml/Document.lean

Documents.

Reading a document replaces its named entities, makes every line break a single
character, reads what stands before the outermost element, and then the rest
character by character.  The result is a mapping with one entry, the outermost
element.

A definition is what the element `root` of a document holds; writing a
definition puts it into one.
-/
import DefinitionTree.Xml.Content
import DefinitionTree.Xml.Prolog
import DefinitionTree.Xml.Writer

namespace DefinitionTree.Xml

/-! ### Reading -/

/-- Makes every line break a single character. -/
def unifyLineBreaks : List Char → List Char
  | [] => []
  | '\r' :: '\n' :: rest => '\n' :: unifyLineBreaks rest
  | '\r' :: rest => '\n' :: unifyLineBreaks rest
  | c :: rest => c :: unifyLineBreaks rest

/-- Drops the mark of the byte order that may stand at the very start. -/
def dropByteOrderMark : List Char → List Char
  | '\ufeff' :: rest => rest
  | cs => cs

/-- The entries that a text holds as a document. -/
def document (s : String) : Except Failure Entries := do
  let cs := unifyLineBreaks (dropByteOrderMark (replaceEntities s).toList)
  let (d, rest) ← prolog cs
  let reading ← rest.foldlM (Reading.step d) {}
  reading.finish

/-! ### Definitions -/

/-- The name of the element that holds a definition. -/
def rootName : String := "root"

/-- The definition that a text holds. -/
def definition (s : String) : Except Failure Entries := do
  match (← document s).field? rootName with
  | none => return []
  | some .null => return []
  | some (.map es) => return es
  | some t => .error (.rootHoldsText t.shown)

/-- The text of a definition.  A list has one outermost element for each item,
with nothing between them. -/
def write (style : Style) (t : Tree) : Except Failure String := do
  let nodes ← nodesOf (.text rootName) t
  return String.ofList (writeNodes style 0 nodes)

end DefinitionTree.Xml
