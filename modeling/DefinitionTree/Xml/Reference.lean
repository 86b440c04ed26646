/-
DefinitionTree/Xml/Reference.lean

References.

A reference starts with an ampersand and ends with a semicolon.  It names a
character by its number, in decimal or hexadecimal digits, or an entity by its
name.  Behind the ampersand it is read one character at a time.  The number has
to be that of a character that a document may hold.
-/
import DefinitionTree.Failure
import DefinitionTree.Number.Numeral
import DefinitionTree.Xml.Entity
import DefinitionTree.Xml.Name

namespace DefinitionTree.Xml

/-! ### Positions -/

/-- A position inside a reference. -/
inductive Reference where
  /-- behind the ampersand -/
  | start
  /-- in the name of an entity, whose letters stand last first -/
  | name (letters : List Char)
  /-- behind the number sign -/
  | number
  /-- in a decimal number -/
  | decimal (n : Nat)
  /-- behind the mark of a hexadecimal number -/
  | hexMark
  /-- in a hexadecimal number -/
  | hex (n : Nat)
deriving DecidableEq, Repr

namespace Reference

/-- What reading one character of a reference comes to. -/
inductive Reading where
  /-- the reference goes on -/
  | more (r : Reference)
  /-- it stands for a character -/
  | char (c : Char)
  /-- it stands for what the entity of this name holds -/
  | entity (name : String)
deriving DecidableEq, Repr

/-! ### Reading -/

/-- The character with a number. -/
def charOf (n : Nat) : Except Failure Reading :=
  if n.isValidChar && isXmlChar (Char.ofNat n) then .ok (.char (Char.ofNat n))
  else .error .malformed

/-- The value of a hexadecimal digit. -/
def hexValue? (c : Char) : Option Nat :=
  if '0' ≤ c ∧ c ≤ '9' then some (c.toNat - '0'.toNat)
  else if 'a' ≤ c ∧ c ≤ 'f' then some (c.toNat - 'a'.toNat + 10)
  else if 'A' ≤ c ∧ c ≤ 'F' then some (c.toNat - 'A'.toNat + 10)
  else none

/-- The value of a decimal digit. -/
def digitValue? (c : Char) : Option Nat :=
  if '0' ≤ c ∧ c ≤ '9' then some (c.toNat - '0'.toNat) else none

/-- Reads one more digit. -/
def digit (value? : Option Nat) (next : Nat → Reference) : Except Failure Reading :=
  match value? with
  | some d => .ok (.more (next d))
  | none => .error .malformed

/-- Reads one character. -/
def step : Reference → Char → Except Failure Reading
  | .start, c =>
    if c = '#' then .ok (.more .number)
    else if isNameStart c then .ok (.more (.name [c]))
    else .error .malformed
  | .name letters, c =>
    if c = ';' then .ok (.entity (String.ofList letters.reverse))
    else if isNameChar c then .ok (.more (.name (c :: letters)))
    else .error .malformed
  | .number, c => if c = 'x' then .ok (.more .hexMark) else digit (digitValue? c) .decimal
  | .decimal n, c =>
    if c = ';' then charOf n else digit (digitValue? c) fun d => .decimal (10 * n + d)
  | .hexMark, c => digit (hexValue? c) .hex
  | .hex n, c =>
    if c = ';' then charOf n else digit (hexValue? c) fun d => .hex (16 * n + d)

/-! ### Entities -/

/-- The character that an entity stands for.  Where declarations may be hidden,
an entity that is not known may be one of them, and stands for nothing. -/
def entityChar? (hidden : Bool) (name : String) : Except Failure (Option Char) :=
  match predefined.lookup name with
  | some c => .ok (some c)
  | none => if hidden then .ok none else .error .malformed

end Reference

end DefinitionTree.Xml
