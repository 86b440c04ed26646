/-
DefinitionTree/Xml/Node.lean

Markup as a structure: elements and comments.

A tree under a key becomes elements of that name.  A list becomes one element
for each item; a mapping becomes an element with its entries as attributes,
children and text; anything else becomes the text of an element.  A key that
cannot be written as a name is refused, element names before attributes, and
attributes before children.  So is a value with an integer that is too long to
be written.
-/
import DefinitionTree.Failure
import DefinitionTree.Text.Blank
import DefinitionTree.Tree.Shown
import DefinitionTree.Wire.Sentinel

namespace DefinitionTree.Xml

/-- A node of markup.  A comment may turn out to be nothing, and is then not
written. -/
inductive Node where
  | comment (text : Option String)
  | element (name : String) (attributes : List (String × String)) (children : List Node)
      (text : String)
deriving Repr, Inhabited

/-! ### Names -/

/-- The text holds a character of the class. -/
def holds (p : Char → Bool) (s : String) : Bool := s.toList.any p

/-- Why a text cannot be written as a name, if it cannot. -/
def nameFault? (s : String) : Option NameFault :=
  if s.toList.head? = some '?' || s.toList.head? = some '!' then some .leadingMark
  else if holds (fun c => c == '<' || c == '>') s then some .angleBracket
  else if holds (· == '/') s then some .slash
  else if holds (fun c => c == '"' || c == '\'') s then some .quotes
  else if holds (· == '=') s then some .equalsSign
  else if holds Text.isBlank s then some .blank
  else none

/-- The name that a key is written as. -/
def nameOf (place : NamePlace) : Key → Except Failure String
  | .text s =>
    match nameFault? s with
    | some fault => .error (.unwritableName place fault)
    | none => .ok s
  | _ => .error (.unwritableName place .notText)

/-! ### Parts of an element -/

/-- The key of comments. -/
def commentKey : Key := .text "#comment"

/-- The name of the attribute that a key stands for. -/
def attributeName? : Key → Option String
  | .text s =>
    if Wire.attributeMark.toList.isPrefixOf s.toList then
      some (String.ofList (s.toList.drop Wire.attributeMark.length))
    else none
  | _ => none

/-- The attributes among the entries of a mapping. -/
def attributesOf : Entries → Except Failure (List (String × String))
  | [] => .ok []
  | (k, t) :: rest =>
    match attributeName? k with
    | some s => do
      let name ← nameOf .attribute (.text s)
      let value ← t.toText
      return (name, value) :: (← attributesOf rest)
    | none => attributesOf rest

/-- The text among the entries of a mapping. -/
def textOf (es : Entries) : Except Failure String := (Wire.textIn es).toText

/-- Two hyphens stand side by side. -/
def hasDoubleHyphen : List Char → Bool
  | '-' :: '-' :: _ => true
  | _ :: rest => hasDoubleHyphen rest
  | [] => false

/-- A comment with the text of a value. -/
def commentOf (t : Tree) : Except Failure Node := do
  let s ← t.toText
  if s = "" then return .comment none
  else if hasDoubleHyphen s.toList then throw .commentHyphens
  else if s.toList.getLast? = some '-' then throw .commentEndsInHyphen
  else return .comment (some s)

/-- The comments that a value stands for: one for each item of a list. -/
def commentsOf : Tree → Except Failure (List Node)
  | .list ts => ts.mapM commentOf
  | t => (fun n => [n]) <$> commentOf t

/-! ### Nodes -/

mutual

/-- The element with this name for a value that is no list, or for an item of
one. -/
def elementOf (name : String) : Tree → Except Failure Node
  | .map es => do
    -- text and attributes are checked before anything in the children
    let text ← textOf es
    let attributes ← attributesOf es
    let children ← childrenOf es
    return .element name attributes children text
  | t => (fun s => .element name [] [] s) <$> t.toText

/-- The elements with this name for the items of a list. -/
def elementsOf (name : String) : List Tree → Except Failure (List Node)
  | [] => .ok []
  | t :: rest => do
    let node ← elementOf name t
    return node :: (← elementsOf name rest)

/-- The nodes for the value of a key. -/
def nodesOf (k : Key) : Tree → Except Failure (List Node)
  | .list ts => do
    let name ← nameOf .element k
    elementsOf name ts
  | t => do
    let name ← nameOf .element k
    let node ← elementOf name t
    return [node]

/-- The nodes among the entries of a mapping.  An empty list has none. -/
def childrenOf : Entries → Except Failure (List Node)
  | [] => .ok []
  | (k, t) :: rest =>
    if k = Wire.textKey || (attributeName? k).isSome then childrenOf rest
    else
      match t with
      | .list [] => childrenOf rest
      | t => do
        let nodes ← if k = commentKey then commentsOf t else nodesOf k t
        return nodes ++ (← childrenOf rest)

end

end DefinitionTree.Xml
