/-
DefinitionTree/Xml/StartTag.lean

Start tags.

A start tag holds the name of an element and its attributes, each with a value
between quotation marks or apostrophes; a slash before the closing bracket says
that the element is empty.  White space in a value is read as a space unless a
reference stands for it.  No attribute comes twice, and white space stands in
front of every attribute.
-/
import DefinitionTree.Xml.Reference

namespace DefinitionTree.Xml

/-! ### Positions -/

/-- A start tag as far as it is read: its attributes stand last first. -/
structure StartTag where
  name : String
  attributes : List (String × List Char) := []
deriving DecidableEq, Repr

/-- An attribute whose value is being read. -/
structure OpenValue where
  tag : StartTag
  key : String
  /-- what encloses the value -/
  mark : Char
  /-- the value so far, last character first -/
  chars : List Char := []
deriving DecidableEq, Repr

/-- A position inside a start tag. -/
inductive TagPlace where
  /-- in the name, whose letters stand last first -/
  | name (letters : List Char)
  /-- between attributes, with or without white space in front -/
  | between (tag : StartTag) (spaced : Bool)
  /-- behind the slash -/
  | slash (tag : StartTag)
  /-- in the name of an attribute, whose letters stand last first -/
  | attributeName (tag : StartTag) (letters : List Char)
  /-- behind the name of an attribute -/
  | equals (tag : StartTag) (key : String)
  /-- behind the equals sign -/
  | mark (tag : StartTag) (key : String)
  /-- in a value -/
  | value (v : OpenValue)
  /-- in a reference inside a value -/
  | reference (v : OpenValue) (r : Reference)
deriving DecidableEq, Repr

/-- What reading one character of a start tag comes to. -/
inductive TagReading where
  /-- the tag goes on -/
  | more (p : TagPlace)
  /-- the tag ends, and an element starts -/
  | opened (tag : StartTag)
  /-- the tag ends, and with it an empty element -/
  | empty (tag : StartTag)
deriving DecidableEq, Repr

/-! ### Reading -/

namespace OpenValue

/-- The value with one more character. -/
def push (v : OpenValue) (c : Char) : OpenValue := { v with chars := c :: v.chars }

/-- The tag with the attribute, which it must not have already. -/
def close (v : OpenValue) : Except Failure StartTag :=
  if (v.tag.attributes.lookup v.key).isSome then .error .malformed
  else .ok { v.tag with attributes := (v.key, v.chars.reverse) :: v.tag.attributes }

/-- Reads one character of the value. -/
def step (v : OpenValue) (c : Char) : Except Failure TagReading :=
  if c = v.mark then do return .more (.between (← v.close) false)
  else if c = '<' then .error .malformed
  else if c = '&' then .ok (.more (.reference v .start))
  else if isSpace c then .ok (.more (.value (v.push ' ')))
  else .ok (.more (.value (v.push c)))

/-- Reads one character of a reference inside the value. -/
def stepReference (hidden : Bool) (v : OpenValue) (r : Reference) (c : Char) :
    Except Failure TagReading := do
  match ← r.step c with
  | .more r => return .more (.reference v r)
  | .char c => return .more (.value (v.push c))
  | .entity name =>
    match ← Reference.entityChar? hidden name with
    | some c => return .more (.value (v.push c))
    | none => return .more (.value v)

end OpenValue

namespace StartTag

/-- Reads one character between attributes. -/
def step (tag : StartTag) (spaced : Bool) (c : Char) : Except Failure TagReading :=
  if c = '>' then .ok (.opened tag)
  else if c = '/' then .ok (.more (.slash tag))
  else if isSpace c then .ok (.more (.between tag true))
  else if spaced ∧ isNameStart c then .ok (.more (.attributeName tag [c]))
  else .error .malformed

end StartTag

namespace TagPlace

/-- Reads one character of a start tag. -/
def step (hidden : Bool) : TagPlace → Char → Except Failure TagReading
  | .name letters, c =>
    if isNameChar c then .ok (.more (.name (c :: letters)))
    else StartTag.step ⟨String.ofList letters.reverse, []⟩ false c
  | .between tag spaced, c => tag.step spaced c
  | .slash tag, c => if c = '>' then .ok (.empty tag) else .error .malformed
  | .attributeName tag letters, c =>
    if isNameChar c then .ok (.more (.attributeName tag (c :: letters)))
    else if c = '=' then .ok (.more (.mark tag (String.ofList letters.reverse)))
    else if isSpace c then .ok (.more (.equals tag (String.ofList letters.reverse)))
    else .error .malformed
  | .equals tag key, c =>
    if c = '=' then .ok (.more (.mark tag key))
    else if isSpace c then .ok (.more (.equals tag key))
    else .error .malformed
  | .mark tag key, c =>
    if c = '"' || c = '\'' then .ok (.more (.value ⟨tag, key, c, []⟩))
    else if isSpace c then .ok (.more (.mark tag key))
    else .error .malformed
  | .value v, c => v.step c
  | .reference v r, c => v.stepReference hidden r c

end TagPlace

end DefinitionTree.Xml
