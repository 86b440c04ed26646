/-
DefinitionTree/Xml/Content.lean

Elements and what is in them.

An element becomes nothing, a value or a mapping.  Its attributes and children
are the entries, in the order in which they start; children of one name become
one list where the first of them stands.  The text between them, white space at
its ends left out, is the value of the element if there is nothing else, and
the last entry otherwise.

The text of a document is read one character at a time.  A state holds the
elements that are open, the innermost first, and the place inside the markup
that reading has come to.
-/
import DefinitionTree.Text.Blank
import DefinitionTree.Xml.Aside
import DefinitionTree.Xml.Doctype.Basic
import DefinitionTree.Xml.Literal

namespace DefinitionTree.Xml

/-! ### Elements -/

/-- Adds a child.  Children of one name make a list. -/
def addChild (name : String) (t : Tree) (es : Entries) : Entries :=
  match es.field? name with
  | none => es ++ [(.text name, t)]
  | some (.list ts) => es.set (.text name) (.list (ts ++ [t]))
  | some first => es.set (.text name) (.list [first, t])

/-- An element that is open. -/
structure OpenElement where
  name : String
  entries : Entries := []
  /-- the text so far, last character first -/
  text : List Char := []
deriving Repr

namespace OpenElement

/-- The element with one more character. -/
def push (e : OpenElement) (c : Char) : OpenElement := { e with text := c :: e.text }

/-- The element with one more child. -/
def addChild (e : OpenElement) (name : String) (t : Tree) : OpenElement :=
  { e with entries := Xml.addChild name t e.entries }

/-- What the element becomes. -/
def value (e : OpenElement) : Except Failure Tree :=
  match Text.trim e.text.reverse, e.entries with
  | [], [] => .ok .null
  | [], es => .ok (.map es)
  | cs, [] => literal (String.ofList cs)
  | cs, es => do return .map (es ++ [(Wire.textKey, ← literal (String.ofList cs))])

end OpenElement

/-! ### States -/

/-- A place inside the markup. -/
inductive Place where
  /-- between markup, behind this many closing brackets in a row -/
  | text (closers : Nat)
  /-- in a reference -/
  | reference (r : Reference)
  /-- behind an opening angle bracket -/
  | markup
  /-- in a start tag -/
  | startTag (p : TagPlace)
  /-- in the name of an end tag, whose letters stand last first -/
  | endName (letters : List Char)
  /-- in an end tag behind its name -/
  | endTag (name : String)
  /-- behind an opening angle bracket and an exclamation mark -/
  | declaration
  /-- where the second hyphen of a comment comes next -/
  | hyphen
  /-- where these characters come next, the last of the mark of plain text -/
  | plainMark (cs : List Char)
  /-- in plain text, behind this many closing brackets in a row -/
  | plain (closers : Nat)
  /-- in a comment or an instruction -/
  | aside (a : Aside)
deriving Repr

/-- A document as far as it is read. -/
structure Reading where
  /-- the elements that are open, the innermost first -/
  elements : List OpenElement := []
  /-- the outermost element, once it is closed -/
  document : Entries := []
  place : Place := .text 0
deriving Repr

namespace Reading

/-! ### Steps -/

/-- The document read up to another place. -/
def goTo (s : Reading) (p : Place) : Except Failure Reading := .ok { s with place := p }

/-- Adds a character to the text of the innermost element. -/
def put (s : Reading) (c : Char) (p : Place) : Except Failure Reading :=
  match s.elements with
  | e :: rest => .ok { s with elements := e.push c :: rest, place := p }
  | [] => .error .malformed

/-- Counts closing brackets in a row, two at most. -/
def countClosers (closers : Nat) (c : Char) : Nat := if c = ']' then min 2 (closers + 1) else 0

/-- Reads a character between markup. -/
def stepText (s : Reading) (closers : Nat) (c : Char) : Except Failure Reading :=
  if c = '<' then s.goTo .markup
  else if s.elements.isEmpty then
    if isSpace c then s.goTo (.text 0) else .error .malformed
  else if c = '&' then s.goTo (.reference .start)
  -- the end of plain text must not stand where there is none
  else if c = '>' ∧ closers = 2 then .error .malformed
  else s.put c (.text (countClosers closers c))

/-- Reads a character of a reference. -/
def stepReference (hidden : Bool) (s : Reading) (r : Reference) (c : Char) :
    Except Failure Reading := do
  match ← r.step c with
  | .more r => s.goTo (.reference r)
  | .char c => s.put c (.text 0)
  | .entity name =>
    match ← Reference.entityChar? hidden name with
    | some c => s.put c (.text 0)
    | none => s.goTo (.text 0)

/-- Opens an element. -/
def openElement (d : Doctype) (s : Reading) (tag : StartTag) : Reading :=
  { s with elements := ⟨tag.name, d.attributes tag, []⟩ :: s.elements, place := .text 0 }

/-- Closes the innermost element. -/
def closeElement (s : Reading) (name : String) : Except Failure Reading :=
  match s.elements with
  | [] => .error .malformed
  | e :: rest =>
    if e.name = name then do
      let t ← e.value
      match rest with
      -- the outermost element is all of the document
      | [] => return { s with elements := [], document := addChild name t s.document, place := .text 0 }
      | p :: more => return { s with elements := p.addChild name t :: more, place := .text 0 }
    else .error .malformed

/-- Reads a character behind an opening angle bracket. -/
def stepMarkup (s : Reading) (c : Char) : Except Failure Reading :=
  if c = '!' then s.goTo .declaration
  else if c = '?' then s.goTo (.aside (.target []))
  else if c = '/' ∧ !s.elements.isEmpty then s.goTo (.endName [])
  else if isNameStart c ∧ (s.document.isEmpty || !s.elements.isEmpty) then
    s.goTo (.startTag (.name [c]))
  else .error .malformed

/-- Reads a character of a start tag. -/
def stepStartTag (d : Doctype) (s : Reading) (p : TagPlace) (c : Char) :
    Except Failure Reading := do
  match ← p.step d.isHidden c with
  | .more p => s.goTo (.startTag p)
  | .opened tag => return s.openElement d tag
  | .empty tag => (s.openElement d tag).closeElement tag.name

/-- Reads a character of the name of an end tag. -/
def stepEndName (s : Reading) (letters : List Char) (c : Char) : Except Failure Reading :=
  if if letters.isEmpty then isNameStart c else isNameChar c then s.goTo (.endName (c :: letters))
  else if letters.isEmpty then .error .malformed
  else if c = '>' then s.closeElement (String.ofList letters.reverse)
  else if isSpace c then s.goTo (.endTag (String.ofList letters.reverse))
  else .error .malformed

/-- Reads a character of an end tag behind its name. -/
def stepEndTag (s : Reading) (name : String) (c : Char) : Except Failure Reading :=
  if c = '>' then s.closeElement name
  else if isSpace c then .ok s
  else .error .malformed

/-- Reads a character behind an opening angle bracket and an exclamation
mark. -/
def stepDeclaration (s : Reading) (c : Char) : Except Failure Reading :=
  if c = '-' then s.goTo .hyphen
  else if c = '[' ∧ !s.elements.isEmpty then s.goTo (.plainMark "CDATA[".toList)
  else .error .malformed

/-- Reads a character of the mark of plain text. -/
def stepPlainMark (s : Reading) (cs : List Char) (c : Char) : Except Failure Reading :=
  match cs with
  | [] => .error .malformed
  | [m] => if c = m then s.goTo (.plain 0) else .error .malformed
  | m :: rest => if c = m then s.goTo (.plainMark rest) else .error .malformed

/-- Takes back the last characters of the text of the innermost element. -/
def takeBack (s : Reading) (n : Nat) : List OpenElement :=
  match s.elements with
  | e :: rest => { e with text := e.text.drop n } :: rest
  | [] => []

/-- Reads a character of plain text.  The brackets that close it are no part of
it. -/
def stepPlain (s : Reading) (closers : Nat) (c : Char) : Except Failure Reading :=
  if c = '>' ∧ closers = 2 then .ok { s with elements := s.takeBack 2, place := .text 0 }
  else s.put c (.plain (countClosers closers c))

/-- Reads a character of a comment or an instruction. -/
def stepAside (s : Reading) (a : Aside) (c : Char) : Except Failure Reading := do
  match ← a.step c with
  | some a => s.goTo (.aside a)
  | none => s.goTo (.text 0)

/-- Reads a character. -/
def step (d : Doctype) (s : Reading) (c : Char) : Except Failure Reading :=
  if !isXmlChar c then .error .malformed
  else
    match s.place with
    | .text closers => s.stepText closers c
    | .reference r => s.stepReference d.isHidden r c
    | .markup => s.stepMarkup c
    | .startTag p => s.stepStartTag d p c
    | .endName letters => s.stepEndName letters c
    | .endTag name => s.stepEndTag name c
    | .declaration => s.stepDeclaration c
    | .hyphen => if c = '-' then s.goTo (.aside (.comment 0)) else .error .malformed
    | .plainMark cs => s.stepPlainMark cs c
    | .plain closers => s.stepPlain closers c
    | .aside a => s.stepAside a c

/-- The document, if nothing is left open. -/
def finish (s : Reading) : Except Failure Entries :=
  match s.place, s.elements, s.document with
  | .text _, [], e :: es => .ok (e :: es)
  | _, _, _ => .error .malformed

end Reading

end DefinitionTree.Xml
