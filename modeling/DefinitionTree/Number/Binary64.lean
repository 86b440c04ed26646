/-
DefinitionTree/Number/Binary64.lean

Floating-point numbers of 64 bits, held exactly.

A finite value is a sign, a natural mantissa and a power of two, so every
question this library asks of a number (is it zero, does it equal that
integer, which decimal names it) is a question about naturals and integers.
No operation is approximate except `ofRatio`, which is where a decimal text
becomes a number, and it rounds once.

The mantissa of a value made here is below `2 ^ 53`, and at least `2 ^ 52`
unless the exponent is the least one, `-1074`.
-/

namespace DefinitionTree

/-- A binary64 value: `(-1) ^ negative * mantissa * 2 ^ exponent`, an
infinity, or no number at all. -/
inductive Binary64 where
  | finite (negative : Bool) (mantissa : Nat) (exponent : Int)
  | infinite (negative : Bool)
  | nan
deriving DecidableEq, Repr, Inhabited

namespace Binary64

/-! ### Rounding a ratio -/

/-- The integer nearest to `n / d`; of two equally near ones, the even. -/
def roundToEven (n d : Nat) : Nat :=
  let q := n / d
  let twice := 2 * (n % d)
  if twice < d then q
  else if d < twice then q + 1
  else if q % 2 = 0 then q else q + 1

/-- The fraction `n / (d * 2 ^ e)` as numerator and denominator. -/
def scaled (n d : Nat) (e : Int) : Nat × Nat :=
  (n * Nat.pow 2 (-e).toNat, d * Nat.pow 2 e.toNat)

/-- The value nearest to `n / d`, ties to the even mantissa.  Ratios beyond
the largest finite value become infinite, tiny ones become zero. -/
def ofRatio (negative : Bool) (n d : Nat) : Binary64 :=
  if n = 0 then .finite negative 0 (-1074)
  else
    -- the quotient by `2 ^ low` has 53 or 54 binary digits, or `low` is least
    let low : Int := max (-1074) ((n.log2 : Int) - d.log2 - 53)
    let (n₀, d₀) := scaled n d low
    let e := if Nat.pow 2 53 ≤ n₀ / d₀ then low + 1 else low
    let (n₁, d₁) := scaled n d e
    let m := roundToEven n₁ d₁
    let (m, e) := if m = Nat.pow 2 53 then (Nat.pow 2 52, e + 1) else (m, e)
    if 971 < e then .infinite negative else .finite negative m e

/-- The value nearest to `digits * 10 ^ exponent`.  Far outside the range of
finite values the answer is known from the size alone, so that no huge power
of ten is ever formed. -/
def ofDecimal (negative : Bool) (digits : Nat) (exponent : Int) : Binary64 :=
  if digits = 0 then .finite negative 0 (-1074)
  else
    -- `10 ^ 3 < 2 ^ 10`, so this is at most the number of decimal digits
    let places : Int := digits.log2 * 3 / 10 + exponent
    if 400 < places then .infinite negative
    else if places + digits.log2 < -400 then .finite negative 0 (-1074)
    else ofRatio negative (digits * Nat.pow 10 exponent.toNat) (Nat.pow 10 (-exponent).toNat)

/-! ### Questions about a value -/

/-- The rational a finite value stands for. -/
def toRat? : Binary64 → Option Rat
  | .finite negative m e =>
    let magnitude : Rat := mkRat (m * Nat.pow 2 e.toNat : Nat) (Nat.pow 2 (-e).toNat)
    some (if negative then -magnitude else magnitude)
  | _ => none

/-- Neither zero counts as set; every other value does. -/
def isNonzero : Binary64 → Bool
  | .finite _ m _ => m ≠ 0
  | _ => true

/-- The integer a value equals, if it equals one. -/
def toInt? (x : Binary64) : Option Int :=
  match x.toRat? with
  | some q => if q.den = 1 then some q.num else none
  | none => none

end Binary64

end DefinitionTree
