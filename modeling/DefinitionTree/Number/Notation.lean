/-
DefinitionTree/Number/Notation.lean

How a floating-point number is written.

Definitions hold numbers in their shortest form: the fewest digits that read
back, positionally while the decimal point falls within sixteen places to the
right or three zeros to the left of the first digit, and otherwise with an
exponent of at least two digits and a sign.  A positional number always has a
fractional part.
-/
import DefinitionTree.Number.Numeral
import DefinitionTree.Number.Shortest

namespace DefinitionTree

/-! ### Layout -/

/-- Which layout a number gets, by the place of its decimal point counted
from the first digit. -/
def Decimal.isPositional (point : Int) : Bool := -4 < point && point ≤ 16

/-- Digits with the decimal point set `point` places from the first one. -/
def Decimal.positional (ds : List Char) (point : Int) : List Char :=
  if point ≤ 0 then
    '0' :: '.' :: (List.replicate (-point).toNat '0' ++ ds)
  else if ds.length ≤ point.toNat then
    ds ++ List.replicate (point.toNat - ds.length) '0' ++ ['.', '0']
  else
    ds.take point.toNat ++ '.' :: ds.drop point.toNat

/-- An exponent: its sign and at least two digits. -/
def Decimal.exponentText (e : Int) : List Char :=
  let ds := Numeral.digits e.natAbs
  'e' :: (if e < 0 then '-' else '+') :: (if ds.length < 2 then '0' :: ds else ds)

/-- Digits with the point after the first one and an exponent. -/
def Decimal.scientific (ds : List Char) (point : Int) : List Char :=
  match ds with
  | [] => []
  | [d] => d :: exponentText (point - 1)
  | d :: rest => d :: '.' :: (rest ++ exponentText (point - 1))

/-- A decimal in the layout its size asks for. -/
def Decimal.layout (d : Decimal) : List Char :=
  let ds := Numeral.digits d.digits
  let point := ds.length + d.exponent
  if isPositional point then positional ds point else scientific ds point

/-! ### Texts -/

namespace Binary64

/-- The text of a number, with the given spellings of infinity and of no
number. -/
def write (infinity noNumber : String) : Binary64 → String
  | .nan => noNumber
  | .infinite negative => (if negative then "-" else "") ++ infinity
  | .finite negative m e =>
    let body := if m = 0 then ['0', '.', '0'] else (shortest m e).layout
    String.ofList (if negative then '-' :: body else body)

/-- The text of a number as a definition holds it. -/
def text : Binary64 → String := write "inf" "nan"

end Binary64

end DefinitionTree
