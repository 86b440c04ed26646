/-
DefinitionTree/Xml/Entity.lean

Named entities.

Markup itself knows five entities.  Definitions may also use the named entities
of hypertext, so before a definition is read every one of these is replaced by
numeric references, one for each character it stands for.  The replacement knows
nothing of markup: it looks at the bare text.  Names that stand for nothing,
and markup's own five, stay as they are.
-/
import DefinitionTree.Number.Numeral
import DefinitionTree.Xml.NamedLower
import DefinitionTree.Xml.NamedUpper

namespace DefinitionTree.Xml

/-! ### The entities -/

/-- The entities of markup itself, each with its character. -/
def predefined : List (String × Char) :=
  [("amp", '&'), ("lt", '<'), ("gt", '>'), ("quot", '"'), ("apos", '\'')]

open Named in
/-- The named entities, by the first letter of their names. -/
def namedByLetter : List (Char × List (String × List Nat)) := [
  ('A', upperA), ('B', upperB), ('C', upperC), ('D', upperD), ('E', upperE), ('F', upperF),
  ('G', upperG), ('H', upperH), ('I', upperI), ('J', upperJ), ('K', upperK), ('L', upperL),
  ('M', upperM), ('N', upperN), ('O', upperO), ('P', upperP), ('Q', upperQ), ('R', upperR),
  ('S', upperS), ('T', upperT), ('U', upperU), ('V', upperV), ('W', upperW), ('X', upperX),
  ('Y', upperY), ('Z', upperZ),
  ('a', lowerA), ('b', lowerB), ('c', lowerC), ('d', lowerD), ('e', lowerE), ('f', lowerF),
  ('g', lowerG), ('h', lowerH), ('i', lowerI), ('j', lowerJ), ('k', lowerK), ('l', lowerL),
  ('m', lowerM), ('n', lowerN), ('o', lowerO), ('p', lowerP), ('q', lowerQ), ('r', lowerR),
  ('s', lowerS), ('t', lowerT), ('u', lowerU), ('v', lowerV), ('w', lowerW), ('x', lowerX),
  ('y', lowerY), ('z', lowerZ)]

/-- The code points that a name stands for. -/
def named? (name : List Char) : Option (List Nat) :=
  match name with
  | [] => none
  | c :: _ =>
    (namedByLetter.lookup c).bind fun table => table.lookup (String.ofList name)

/-! ### Replacing -/

/-- A numeric reference. -/
def numericReference (n : Nat) : List Char := '&' :: '#' :: (Numeral.digits n ++ [';'])

/-- What replaces the entity whose name comes next, behind its ampersand, and
how many characters the name and its semicolon take. -/
def replacement? (cs : List Char) : Option (List Char × Nat) :=
  let name := cs.takeWhile Char.isAlphanum
  if (cs.drop name.length).head? = some ';' && (predefined.lookup (String.ofList name)).isNone then
    (named? name).map fun ns => (ns.flatMap numericReference, name.length + 1)
  else none

/-- Replaces named entities by numeric references, after skipping some
characters. -/
def replaceFrom : Nat → List Char → List Char
  | _, [] => []
  | skip + 1, _ :: rest => replaceFrom skip rest
  | 0, c :: rest =>
    if c = '&' then
      match replacement? rest with
      | some (cs, taken) => cs ++ replaceFrom taken rest
      | none => c :: replaceFrom 0 rest
    else c :: replaceFrom 0 rest

/-- Replaces the named entities of a text by numeric references. -/
def replaceEntities (s : String) : String := String.ofList (replaceFrom 0 s.toList)

end DefinitionTree.Xml
