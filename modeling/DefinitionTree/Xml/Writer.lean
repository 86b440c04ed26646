/-
DefinitionTree/Xml/Writer.lean

Writing markup.

An element is always written with a start tag and an end tag, its text behind
its children.  In pretty style every element stands on a line of its own,
indented by its depth, and an element with children has its end tag on a line
of its own, too; nothing follows the outermost element.  What would be taken
for markup is written as a reference.
-/
import DefinitionTree.Xml.Node

namespace DefinitionTree.Xml

/-! ### Escaping -/

/-- A character of text. -/
def escapeText (c : Char) : List Char :=
  if c = '&' then "&amp;".toList
  else if c = '<' then "&lt;".toList
  else if c = '>' then "&gt;".toList
  else [c]

/-- A character of an attribute's value.  White space that reading would
replace is written as a reference. -/
def escapeAttribute (mark c : Char) : List Char :=
  if c = '\n' then "&#10;".toList
  else if c = '\r' then "&#13;".toList
  else if c = '\t' then "&#9;".toList
  else if c = '"' ∧ mark = '"' then "&quot;".toList
  else escapeText c

/-- The mark that encloses an attribute's value: the apostrophe only if the
value holds quotation marks and no apostrophe. -/
def valueMark (cs : List Char) : Char :=
  if cs.contains '"' && !cs.contains '\'' then '\'' else '"'

/-- An attribute, with the blank in front of it. -/
def writeAttribute (name value : String) : List Char :=
  let mark := valueMark value.toList
  ' ' :: (name.toList ++ '=' :: mark
    :: (value.toList.flatMap (escapeAttribute mark) ++ [mark]))

/-! ### Nodes -/

/-- How markup is laid out. -/
structure Style where
  pretty : Bool := true
  indent : List Char := [' ', ' ']
deriving Repr

namespace Style

/-- The indentation of a depth. -/
def margin (style : Style) (depth : Nat) : List Char :=
  if style.pretty then (List.replicate depth style.indent).flatten else []

/-- The end of a line. -/
def lineEnd (style : Style) : List Char := if style.pretty then ['\n'] else []

end Style

/-- A start tag. -/
def startTag (name : String) (attributes : List (String × String)) : List Char :=
  '<' :: (name.toList ++ attributes.flatMap (fun a => writeAttribute a.1 a.2) ++ ['>'])

/-- An end tag. -/
def endTag (name : String) : List Char := '<' :: '/' :: (name.toList ++ ['>'])

mutual

/-- A node at a depth. -/
def writeNode (style : Style) (depth : Nat) : Node → List Char
  | .comment none => []
  | .comment (some s) =>
    style.margin depth ++ "<!--".toList ++ s.toList.flatMap escapeText ++ "-->".toList
      ++ style.lineEnd
  | .element name attributes children text =>
    style.margin depth ++ startTag name attributes
      ++ (if children.isEmpty then [] else style.lineEnd)
      ++ writeNodes style (depth + 1) children
      ++ text.toList.flatMap escapeText
      ++ (if children.isEmpty then [] else style.margin depth)
      ++ endTag name ++ (if depth = 0 then [] else style.lineEnd)

/-- Nodes at a depth, one after the other. -/
def writeNodes (style : Style) (depth : Nat) : List Node → List Char
  | [] => []
  | n :: rest => writeNode style depth n ++ writeNodes style depth rest

end

end DefinitionTree.Xml
