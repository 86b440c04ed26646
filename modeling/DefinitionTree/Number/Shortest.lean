/-
DefinitionTree/Number/Shortest.lean

The shortest decimal that names a floating-point value.

The reals that round to a finite value form an interval around it, ends
included exactly when the mantissa is even.  For one digit, two digits, and
so on, the two neighbours of the value on that decimal grid are tried; the
first grid with a neighbour inside the interval wins, and of two the nearer
one.  All comparisons are between naturals.

Main definitions:

* `Decimal`: a natural number of digits times a power of ten;
* `Binary64.names`: the decimal rounds to the value;
* `Binary64.shortest`: the shortest decimal that does.
-/
import DefinitionTree.Number.Binary64

namespace DefinitionTree

/-- The number `digits * 10 ^ exponent`. -/
structure Decimal where
  digits : Nat
  exponent : Int
deriving DecidableEq, Repr

namespace Decimal

/-- Compares `d` with `n * 2 ^ e`, exactly. -/
def compareWith (d : Decimal) (n : Nat) (e : Int) : Ordering :=
  compare (d.digits * Nat.pow 10 d.exponent.toNat * Nat.pow 2 (-e).toNat)
    (n * Nat.pow 2 e.toNat * Nat.pow 10 (-d.exponent).toNat)

/-- Drops the zeros at the end of the digits; `fuel` bounds their number. -/
def stripAux : Nat → Nat → Int → Decimal
  | 0, n, e => ⟨n, e⟩
  | fuel + 1, n, e =>
    if n % 10 = 0 ∧ n ≠ 0 then stripAux fuel (n / 10) (e + 1) else ⟨n, e⟩

/-- The same number without zeros at the end of its digits. -/
def strip (d : Decimal) : Decimal := stripAux d.digits.log2 d.digits d.exponent

end Decimal

namespace Binary64

/-- `d` is one of the reals that round to `m * 2 ^ e`.  The ends are counted
in quarters of the last binary place, because the gap below a power of two
is half the gap above it. -/
def names (m : Nat) (e : Int) (d : Decimal) : Bool :=
  -- at a power of two the gap below is half as wide, except at the very bottom
  let narrow := m = Nat.pow 2 52 ∧ -1074 < e
  let low := if narrow then 4 * m - 1 else 4 * m - 2
  let high := 4 * m + 2
  let closed := m % 2 == 0
  let fromBelow := d.compareWith low (e - 2)
  let fromAbove := d.compareWith high (e - 2)
  (fromBelow == .gt || (closed && fromBelow == .eq)) &&
    (fromAbove == .lt || (closed && fromAbove == .eq))

/-- The least `k` with `m * 2 ^ e < 10 ^ k`, for `m` not zero.  The first
candidate comes from the binary logarithm and is at most three too small. -/
def scale (m : Nat) (e : Int) : Int :=
  let k := Int.fdiv (((m.log2 : Int) + e) * 30103) 100000
  match [k, k + 1, k + 2].find? fun k => (Decimal.mk 1 k).compareWith m e == .gt with
  | some k => k
  | none => k + 3

/-- The neighbour of `m * 2 ^ e` on the grid `10 ^ g` that names it, if one
does: the nearer of two, and the even one if both are equally near. -/
def onGrid (m : Nat) (e g : Int) : Option Decimal :=
  let n := m * Nat.pow 2 e.toNat * Nat.pow 10 (-g).toNat
  let d := Nat.pow 2 (-e).toNat * Nat.pow 10 g.toNat
  let below := n / d
  let lower : Decimal := ⟨below, g⟩
  let upper : Decimal := ⟨below + 1, g⟩
  match names m e lower, names m e upper with
  | true, false => some lower
  | false, true => some upper
  | false, false => none
  | true, true =>
    match compare (2 * n) ((2 * below + 1) * d) with
    | .lt => some lower
    | .gt => some upper
    | .eq => if below % 2 = 0 then some lower else some upper

/-- The value itself as a decimal, all its digits written out. -/
def exactly (m : Nat) (e : Int) : Decimal :=
  if 0 ≤ e then ⟨m * Nat.pow 2 e.toNat, 0⟩ else ⟨m * Nat.pow 5 (-e).toNat, e⟩

/-- The shortest decimal that names `m * 2 ^ e`, for `m` not zero.  Seventeen
digits always suffice; past them the exact value would stand in. -/
def shortest (m : Nat) (e : Int) : Decimal :=
  let k := scale m e
  match (List.range 17).findSome? fun i : Nat => onGrid m e (k - (i + 1)) with
  | some d => d.strip
  | none => (exactly m e).strip

end Binary64

end DefinitionTree
