/-
DefinitionTree/Xml/Literal.lean

Element text as a value.

The text of an element becomes a truth value or a number if it is the exact
spelling of one, the spelling in which that value would be written; any other
text is a text.  So `007`, `1.50`, `-0` and `1e3` stay texts.
-/
import DefinitionTree.Failure
import DefinitionTree.Number.Notation
import DefinitionTree.Text.Basic
import DefinitionTree.Tree.Basic

namespace DefinitionTree.Xml

/-! ### Integers -/

/-- Drops a minus sign at the start. -/
def dropMinus : List Char → List Char
  | '-' :: cs => cs
  | cs => cs

/-- Zero, or digits that do not start with zero.  Digits of any script count. -/
def isWhole : List Char → Bool
  | ['0'] => true
  | c :: cs => '1' ≤ c && c ≤ '9' && cs.all Text.isDecimal
  | [] => false

/-- The integer with this spelling. -/
def integerOf (cs : List Char) : Int :=
  match cs with
  | '-' :: ds => -(Numeral.value ds : Int)
  | ds => Numeral.value ds

/-! ### Fractions -/

/-- The digits on both sides of the point, in a decimal fraction whose last
digit is not zero. -/
def fractionParts? (cs : List Char) : Option (List Char × List Char) :=
  let whole := cs.takeWhile Numeral.isDigit
  match cs.dropWhile Numeral.isDigit with
  | '.' :: fraction =>
    if isWhole whole && !fraction.isEmpty && fraction.all Numeral.isDigit
        && fraction.getLast? != some '0' then
      some (whole, fraction)
    else none
  | _ => none

/-- The number that a decimal fraction denotes. -/
def fraction? (cs : List Char) : Option Binary64 :=
  (fractionParts? (dropMinus cs)).map fun (whole, fraction) =>
    .ofDecimal (cs.head? == some '-') (Numeral.value (whole ++ fraction))
      (-(fraction.length : Int))

/-! ### Values -/

/-- The value that a text spells. -/
def literal (s : String) : Except Failure Tree :=
  let cs := s.toList
  let body := dropMinus (Text.dropLineEnd cs)
  if s = "true" then .ok (.bool true)
  else if s = "false" then .ok (.bool false)
  else if isWhole body then
    -- too many digits fail before it is asked how the integer would be written
    if Numeral.digitLimit < body.length then .error (.integerTooLong body.length)
    else if Numeral.ofInt (integerOf cs) = cs then .ok (.int (integerOf cs))
    else .ok (.text s)
  else
    match fraction? cs with
    | some x => if x.text = s then .ok (.float x) else .ok (.text s)
    | none => .ok (.text s)

end DefinitionTree.Xml
