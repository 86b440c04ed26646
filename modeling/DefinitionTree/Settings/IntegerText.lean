/-
DefinitionTree/Settings/IntegerText.lean

Integers written as texts.

Where settings want an integer, a text may spell it the way people write
numbers: with white space around it, with a sign, with leading zeros, with low
lines between the digits, and with a fraction of zeros.  All of this is taken
away step by step, and what is left has to be a plain integer: a minus sign if
it is negative, and digits that do not start with a zero unless that is all.

Each step looks at nothing but its own part, which lets some unusual texts in:
leading zeros may have any number of low lines among them, and a minus sign may
stand behind them.
-/
import DefinitionTree.Number.Numeral
import DefinitionTree.Text.Blank

namespace DefinitionTree

/-- Why a text gives no integer. -/
inductive IntegerFault where
  /-- the text spells no integer -/
  | unreadable
  /-- the integer has more digits than are read -/
  | tooLong
deriving DecidableEq, Repr

namespace IntegerText

/-! ### Signs -/

/-- What follows the plus sign, if there is one; a minus sign may not. -/
def dropPlus? : List Char → Option (List Char)
  | '+' :: '-' :: _ => none
  | '+' :: cs => some cs
  | cs => some cs

/-- Whether a minus sign stands in front, and what follows it. -/
def splitMinus : List Char → Bool × List Char
  | '-' :: cs => (true, cs)
  | cs => (false, cs)

/-! ### Leading zeros -/

/-- The digits that a number may start with. -/
def isLeadingDigit (c : Char) : Bool := '1' ≤ c && c ≤ '9'

/-- What is left behind zeros and low lines, of which `last` was the last one.
If no digit follows them, they are a zero that stays. -/
def afterZeros? (last : Char) : List Char → Option (List Char)
  | [] => some [last]
  | c :: cs =>
    if c = '0' ∨ c = '_' then afterZeros? c cs
    else if c = '.' then some (last :: '.' :: cs)
    else if isLeadingDigit c ∨ c = '-' then some (c :: cs)
    else none

/-- Drops the leading zeros of a number. -/
def dropZeros? : List Char → Option (List Char)
  | [] => none
  | c :: cs =>
    if c = '0' then afterZeros? c cs
    else if isLeadingDigit c ∨ c = '-' then some (c :: cs)
    else none

/-! ### Fractions and low lines -/

/-- Drops the fraction of a number if it is one of zeros. -/
def dropFraction (cs : List Char) : List Char :=
  match cs.dropWhile (· ≠ '.') with
  | '.' :: zeros =>
    if !zeros.isEmpty && zeros.all (· = '0') then cs.takeWhile (· ≠ '.') else cs
  | _ => cs

/-- Two low lines stand side by side. -/
def hasDoubleLine : List Char → Bool
  | '_' :: '_' :: _ => true
  | _ :: cs => hasDoubleLine cs
  | [] => false

/-- Drops the low lines of a number if each of them stands between two
characters of another kind. -/
def dropLines (cs : List Char) : List Char :=
  if cs.head? = some '_' || cs.getLast? = some '_' || hasDoubleLine cs then cs
  else cs.filter (· ≠ '_')

/-! ### Reading -/

/-- The plain integer that a text without white space is brought down to. -/
def plain? (cs : List Char) : Option (List Char) := do
  let cs ← dropPlus? cs
  let (negative, cs) := splitMinus cs
  let cs ← dropZeros? cs
  let cs := dropLines (dropFraction cs)
  return if negative then '-' :: cs else cs

/-- Reads a plain integer. -/
def readPlain (cs : List Char) : Except IntegerFault Int :=
  let (negative, ds) := splitMinus cs
  let run := ds.takeWhile Numeral.isDigit
  if ds = ['0'] then .ok 0
  else if !ds.head?.any isLeadingDigit then .error .unreadable
  -- a minus sign counts as a digit, and what follows too many digits is not looked at
  else if Numeral.digitLimit < run.length + (if negative then 1 else 0) then .error .tooLong
  else if run = ds then
    .ok (if negative then -(Numeral.value ds) else Numeral.value ds)
  else .error .unreadable

/-- The integer that a text spells. -/
def read (s : String) : Except IntegerFault Int :=
  match plain? (Text.strip Text.isWhite s.toList) with
  | some cs => readPlain cs
  | none => .error .unreadable

end IntegerText

end DefinitionTree
