/-
DefinitionTree/Text/NumberLike.lean

Texts that read as numbers.

A reader that turns text into numbers on sight would take these for numbers:
decimals with an optional sign, fraction and exponent, the word `Infinity`,
hexadecimal, octal and binary literals, and the empty text, each with blanks
around it.  Digits of any script count in decimals.  A string of this form has
to be marked as a string where definitions are written.
-/
import DefinitionTree.Text.Basic
import DefinitionTree.Text.Blank

namespace DefinitionTree.Text

/-! ### The parts of a number -/

/-- Drops a sign at the start. -/
def dropSign : List Char → List Char
  | '+' :: cs => cs
  | '-' :: cs => cs
  | cs => cs

/-- At least one character, all of the class. -/
def isRun (p : Char → Bool) (cs : List Char) : Bool := !cs.isEmpty && cs.all p

/-- Nothing, or an exponent. -/
def isExponent : List Char → Bool
  | [] => true
  | c :: cs => (c == 'e' || c == 'E') && isRun isDecimal (dropSign cs)

/-- A decimal without sign: digits on at least one side of the point. -/
def isUnsignedDecimal (cs : List Char) : Bool :=
  let whole := cs.takeWhile isDecimal
  match cs.dropWhile isDecimal with
  | '.' :: rest =>
    (!whole.isEmpty || !(rest.takeWhile isDecimal).isEmpty) &&
      isExponent (rest.dropWhile isDecimal)
  | rest => !whole.isEmpty && isExponent rest

/-- A literal in base sixteen, eight or two. -/
def isBasedLiteral : List Char → Bool
  | '0' :: b :: cs =>
    if b == 'x' || b == 'X' then
      isRun (fun c => ('0' ≤ c && c ≤ '9') || ('a' ≤ c && c ≤ 'f') || ('A' ≤ c && c ≤ 'F')) cs
    else if b == 'o' || b == 'O' then isRun (fun c => '0' ≤ c && c ≤ '7') cs
    else if b == 'b' || b == 'B' then isRun (fun c => c == '0' || c == '1') cs
    else false
  | _ => false

/-- One of the numeral forms, without blanks. -/
def isNumber (cs : List Char) : Bool :=
  isUnsignedDecimal (dropSign cs) || dropSign cs == "Infinity".toList || isBasedLiteral cs

/-! ### The whole text -/

/-- The text reads as a number; the empty and the blank text do, too. -/
def isNumberLike (s : String) : Bool :=
  let cs := trim s.toList
  cs.isEmpty || isNumber cs

end DefinitionTree.Text
