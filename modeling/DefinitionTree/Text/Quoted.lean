/-
DefinitionTree/Text/Quoted.lean

Quoted text, as messages show it.

A text stands between apostrophes, or between quotation marks when it holds
an apostrophe and no quotation mark.  The backslash and the enclosing mark are
escaped, line breaks and tabs have short escapes, and any other character that
is not printable is written by its code point with two, four or eight
hexadecimal digits.
-/
import DefinitionTree.Text.Printable

namespace DefinitionTree.Text

/-! ### Hexadecimal digits -/

/-- The character of a digit below sixteen. -/
def hexDigit (d : Nat) : Char :=
  if d < 10 then Char.ofNat (48 + d) else Char.ofNat (87 + d)

/-- The last `width` hexadecimal digits of a number. -/
def hex : Nat → Nat → List Char
  | 0, _ => []
  | width + 1, n => hex width (n / 16) ++ [hexDigit (n % 16)]

/-! ### Quoting -/

/-- One character between the given marks. -/
def quoteChar (mark c : Char) : List Char :=
  if c = mark ∨ c = '\\' then ['\\', c]
  else if c = '\n' then ['\\', 'n']
  else if c = '\r' then ['\\', 'r']
  else if c = '\t' then ['\\', 't']
  else if isPrintable c then [c]
  else if c.toNat < 0x100 then '\\' :: 'x' :: hex 2 c.toNat
  else if c.toNat < 0x10000 then '\\' :: 'u' :: hex 4 c.toNat
  else '\\' :: 'U' :: hex 8 c.toNat

/-- The mark that encloses a text. -/
def quoteMark (cs : List Char) : Char :=
  -- quotation marks only where they save escapes
  if cs.contains '\'' && !cs.contains '"' then '"' else '\''

/-- A text as messages show it. -/
def quoted (s : String) : String :=
  let cs := s.toList
  let mark := quoteMark cs
  String.ofList (mark :: (cs.flatMap (quoteChar mark) ++ [mark]))

end DefinitionTree.Text
