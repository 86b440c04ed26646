/-
DefinitionTree/Xml/Prolog.lean

What stands before the outermost element.

A document may start with a declaration of its version, its encoding and
whether it stands alone.  After that comments, instructions and white space may
stand, and one document type.  Reading all this leaves what the document type
says about the content, and the text from the outermost element on.

The encoding is of no interest: what is read is text already.
-/
import DefinitionTree.Xml.Aside
import DefinitionTree.Xml.Doctype.Declaration

namespace DefinitionTree.Xml

/-! ### The declaration of a document -/

/-- Drops white space. -/
def dropSpace (cs : List Char) : List Char := cs.dropWhile isSpace

/-- White space comes next. -/
def startsWithSpace (cs : List Char) : Bool := cs.head?.any isSpace

/-- Drops these characters from the start. -/
def dropStart? : List Char → List Char → Option (List Char)
  | [], cs => some cs
  | m :: marks, c :: rest => if m = c then dropStart? marks rest else none
  | _ :: _, [] => none

/-- A letter comes next. -/
def startsWithLetter (cs : List Char) : Bool := cs.head?.any Char.isAlpha

/-- The characters of a setting in the declaration. -/
def isSettingChar (c : Char) : Bool := c.isAlphanum || c == '.' || c == '-' || c == '_'

/-- A setting of the declaration, with what comes behind it: its name, an
equals sign, and its value in quotation marks or apostrophes. -/
def setting? (name : String) (cs : List Char) : Option (List Char × List Char) := do
  guard (startsWithSpace cs)
  let rest ← dropStart? name.toList (dropSpace cs)
  let rest ← dropStart? ['='] (dropSpace rest)
  let mark ← (dropSpace rest).head?
  guard (mark = '"' || mark = '\'')
  let rest := (dropSpace rest).tail
  let value := rest.takeWhile isSettingChar
  return (value, ← dropStart? [mark] (rest.drop value.length))

/-- A setting of the declaration that may be missing. -/
def optionalSetting (name : String) (cs : List Char) : Option (List Char) × List Char :=
  match setting? name cs with
  | some (value, rest) => (some value, rest)
  | none => (none, cs)

/-- The declaration behind its first word: whether the document stands alone,
and what comes behind. -/
def documentDeclaration? (cs : List Char) : Option (Bool × List Char) := do
  let (_, rest) ← setting? "version" cs
  let (encoding, rest) := optionalSetting "encoding" rest
  let (standalone, rest) := optionalSetting "standalone" rest
  guard (encoding.all startsWithLetter)
  guard (standalone.all fun cs => cs == "yes".toList || cs == "no".toList)
  return (standalone == some "yes".toList, ← dropStart? "?>".toList (dropSpace rest))

/-- A character of a name comes next. -/
def startsWithNameChar (cs : List Char) : Bool := cs.head?.any isNameChar

/-- Reads the declaration of the document, if there is one. -/
def documentStart (cs : List Char) : Except Failure (Doctype × List Char) :=
  match dropStart? "<?xml".toList cs with
  | none => .ok ({}, cs)
  | some rest =>
    -- a longer name is the target of an instruction
    if startsWithNameChar rest then .ok ({}, cs)
    else
      match documentDeclaration? rest with
      | some (standalone, rest) => .ok ({ standalone }, rest)
      | none => .error .malformed

/-! ### The document type -/

namespace Doctype

/-- A reference to declarations elsewhere.  Unless the document stands alone
they could change the meaning of those that follow. -/
def refer (d : Doctype) : Doctype :=
  { d with isExtended := true, isSkipping := !d.standalone }

/-- The keyword of the declaration that starts here, and what comes behind
it. -/
def keyword? : List Char → Option (String × List Char)
  | '<' :: '!' :: more =>
    let kind := more.takeWhile Char.isAlpha
    let after := more.drop kind.length
    if startsWithSpace after then some (String.ofList kind, after) else none
  | _ => none

theorem length_keyword?_lt {cs rest : List Char} {kind : String}
    (h : keyword? cs = some (kind, rest)) : rest.length < cs.length := by
  unfold keyword? at h
  split at h
  · simp only [Option.ite_none_right_eq_some, Option.some.injEq, Prod.mk.injEq] at h
    simp only [← h.2.2, List.length_drop, List.length_cons]
    omega
  · simp at h

/-- Reads the declarations between brackets, up to the end of the document
type. -/
def subset (d : Doctype) : List Char → Except Failure (Doctype × List Char)
  | [] => .error .malformed
  | c :: rest =>
    if isSpace c then subset d rest
    else if c = ']' then
      match dropSpace rest with
      | '>' :: after => .ok (d, after)
      | _ => .error .malformed
    else if c = '%' then
      match Token.nextPercent rest with
      | (.parameter, n) => subset d.refer (rest.drop n)
      | _ => .error .malformed
    else
      -- comments and instructions first, since they start like declarations
      match _ : Aside.start? (c :: rest), _ : keyword? (c :: rest) with
      | some (a, more), _ =>
        match _ : a.skip more with
        | .ok after => subset d after
        | .error f => .error f
      | none, some (kind, after) =>
        match d.declare kind (tokens after).1 with
        | .ok d => subset d (tokens after).2
        | .error f => .error f
      | none, none => .error .malformed
termination_by cs => cs.length
decreasing_by
  · simp
  · simp only [List.length_drop, List.length_cons]
    omega
  · exact Aside.length_skip_start?_lt ‹_› ‹_›
  · exact Nat.lt_of_le_of_lt (length_tokens_le after) (length_keyword?_lt ‹_›)

/-- Reads a document type behind its keyword. -/
def read (d : Doctype) (cs : List Char) : Except Failure (Doctype × List Char) :=
  let (ts, rest) := tokens cs
  let next (d : Doctype) (t : Token) : Except Failure (Doctype × List Char) :=
    if t = .close then .ok (d, rest)
    else if t = .openBracket then d.subset rest
    else .error .malformed
  match ts with
  | [.name _ none, t] => next d t
  | [.name _ none, .name "SYSTEM" none, .literal _ _, t] => next { d with isExtended := true } t
  | [.name _ none, .name "PUBLIC" none, .literal _ cs, .literal _ _, t] =>
    if cs.all isPublicChar then next { d with isExtended := true } t else .error .malformed
  | _ => .error .malformed

end Doctype

/-! ### Everything before the outermost element -/

/-- Skips white space, comments and instructions. -/
def skipAsides : List Char → Except Failure (List Char)
  | [] => .ok []
  | c :: rest =>
    if isSpace c then skipAsides rest
    else
      match _ : Aside.start? (c :: rest) with
      | some (a, more) =>
        match _ : a.skip more with
        | .ok after => skipAsides after
        | .error f => .error f
      | none => .ok (c :: rest)
termination_by cs => cs.length
decreasing_by
  · simp
  · exact Aside.length_skip_start?_lt ‹_› ‹_›

/-- Reads what stands before the outermost element. -/
def prolog (cs : List Char) : Except Failure (Doctype × List Char) := do
  let (d, rest) ← documentStart cs
  let rest ← skipAsides rest
  match Doctype.keyword? rest with
  | some ("DOCTYPE", after) =>
    let (d, rest) ← d.read after
    return (d, ← skipAsides rest)
  | _ => return (d, rest)

end DefinitionTree.Xml
