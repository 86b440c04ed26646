/-
DefinitionTree/Json/Token.lean

The tokens of JSON text.

A token is a mark, or a scalar already read.  Text that is no token, and an
integer with too many digits, become tokens as well, so that a reader meets
them in the order of the text.  Beside the scalars of the standard, `NaN`,
`Infinity` and `-Infinity` are read.
-/
import DefinitionTree.Failure
import DefinitionTree.Number.Numeral
import DefinitionTree.Tree.Basic

namespace DefinitionTree.Json

/-- A token of JSON text. -/
inductive Token where
  | openList
  | closeList
  | openMap
  | closeMap
  | comma
  | colon
  | scalar (t : Tree)
  | bad (failure : Failure)
deriving Repr

/-! ### Strings -/

/-- The value of a hexadecimal digit. -/
def hexValue? (c : Char) : Option Nat :=
  if '0' ≤ c && c ≤ '9' then some (c.toNat - 48)
  else if 'a' ≤ c && c ≤ 'f' then some (c.toNat - 87)
  else if 'A' ≤ c && c ≤ 'F' then some (c.toNat - 55)
  else none

/-- The number that four hexadecimal digits denote. -/
def hexUnit? (a b c d : Char) : Option Nat := do
  return 4096 * (← hexValue? a) + 256 * (← hexValue? b) + 16 * (← hexValue? c) + (← hexValue? d)

/-- The body of a string up to its closing mark, as code points and 16-bit
units in reverse, and the text after it. -/
def stringBody (units : List Nat) : List Char → Option (List Nat × List Char)
  | [] => none
  | '"' :: rest => some (units, rest)
  | '\\' :: 'u' :: a :: b :: c :: d :: rest =>
    match hexUnit? a b c d with
    | some u => stringBody (u :: units) rest
    | none => none
  | '\\' :: c :: rest =>
    if c = '"' ∨ c = '\\' ∨ c = '/' then stringBody (c.toNat :: units) rest
    else if c = 'b' then stringBody (8 :: units) rest
    else if c = 'f' then stringBody (12 :: units) rest
    else if c = 'n' then stringBody (10 :: units) rest
    else if c = 'r' then stringBody (13 :: units) rest
    else if c = 't' then stringBody (9 :: units) rest
    else none
  | c :: rest => if c = '\\' ∨ c.toNat < 32 then none else stringBody (c.toNat :: units) rest

theorem length_of_stringBody {units : List Nat} {cs : List Char} {p : List Nat × List Char}
    (h : stringBody units cs = some p) : p.2.length < cs.length := by
  fun_induction stringBody units cs <;> simp_all <;> grind

/-- The text of code points and 16-bit units given in reverse.  A pair of surrogates is
one character.  A lone surrogate is no character, so U+FFFD stands in its place; a reader
whose texts are sequences of code points keeps it as it is. -/
def textOfUnits (acc : List Char) : List Nat → List Char
  | [] => acc
  | low :: high :: rest =>
    if 0xDC00 ≤ low ∧ low ≤ 0xDFFF ∧ 0xD800 ≤ high ∧ high ≤ 0xDBFF then
      textOfUnits (Char.ofNat (0x10000 + 1024 * (high - 0xD800) + (low - 0xDC00)) :: acc) rest
    else if 0xD800 ≤ low ∧ low ≤ 0xDFFF then textOfUnits ('\uFFFD' :: acc) (high :: rest)
    else textOfUnits (Char.ofNat low :: acc) (high :: rest)
  | [u] => (if 0xD800 ≤ u ∧ u ≤ 0xDFFF then '\uFFFD' else Char.ofNat u) :: acc

/-! ### Numbers and words -/

/-- The characters that numbers are made of. -/
def isNumberChar (c : Char) : Bool :=
  Numeral.isDigit c || c == '-' || c == '+' || c == '.' || c == 'e' || c == 'E'

/-- An exponent: a sign and digits. -/
def exponent? : List Char → Option Int
  | '-' :: ds => if !ds.isEmpty && ds.all Numeral.isDigit then some (-(Numeral.value ds : Int)) else none
  | '+' :: ds => if !ds.isEmpty && ds.all Numeral.isDigit then some (Numeral.value ds) else none
  | ds => if !ds.isEmpty && ds.all Numeral.isDigit then some (Numeral.value ds) else none

/-- A number without its sign: digits, then perhaps a fraction and an
exponent.  With either of them it is a floating-point number. -/
def unsigned (negative : Bool) (cs : List Char) : Token :=
  let whole := cs.takeWhile Numeral.isDigit
  let rest := cs.dropWhile Numeral.isDigit
  -- a zero in front stands alone
  if whole.isEmpty || (whole.head? == some '0' && whole.length != 1) then .bad .invalidJson
  else
    let fraction := match rest with
      | '.' :: rest => rest.takeWhile Numeral.isDigit
      | _ => []
    -- a point without digits is left over, and refused below
    let tail := match rest with
      | '.' :: rest => if fraction.isEmpty then ['.'] else rest.dropWhile Numeral.isDigit
      | rest => rest
    let float (e : Int) : Token := .scalar (.float
      (.ofDecimal negative (Numeral.value (whole ++ fraction)) (e - fraction.length)))
    match tail with
    | [] =>
      if !fraction.isEmpty then float 0
      else if Numeral.digitLimit < whole.length then .bad (.integerTooLong whole.length)
      else .scalar (.int (if negative then -(Numeral.value whole : Int) else Numeral.value whole))
    | c :: tail =>
      if c = 'e' ∨ c = 'E' then
        match exponent? tail with
        | some e => float e
        | none => .bad .invalidJson
      else .bad .invalidJson

/-- The number written so. -/
def numberToken : List Char → Token
  | '-' :: cs => unsigned true cs
  | cs => unsigned false cs

/-- The scalar that a word names. -/
def wordToken (cs : List Char) : Token :=
  if cs = "null".toList then .scalar .null
  else if cs = "true".toList then .scalar (.bool true)
  else if cs = "false".toList then .scalar (.bool false)
  else if cs = "NaN".toList then .scalar (.float .nan)
  else if cs = "Infinity".toList then .scalar (.float (.infinite false))
  else if cs = "-Infinity".toList then .scalar (.float (.infinite true))
  else .bad .invalidJson

/-! ### The whole text -/

/-- A mark's token. -/
def mark? (c : Char) : Option Token :=
  if c = '[' then some .openList
  else if c = ']' then some .closeList
  else if c = '{' then some .openMap
  else if c = '}' then some .closeMap
  else if c = ',' then some .comma
  else if c = ':' then some .colon
  else none

/-- The tokens of a text.  The first one that is bad is the last. -/
def tokens (cs : List Char) : List Token :=
  match cs with
  | [] => []
  | c :: rest =>
    if c = ' ' ∨ c = '\t' ∨ c = '\n' ∨ c = '\r' then tokens rest
    else match mark? c with
      | some t => t :: tokens rest
      | none =>
        if c = '"' then
          match h : stringBody [] rest with
          | some (units, more) =>
            have : more.length < rest.length := length_of_stringBody h
            .scalar (.text (String.ofList (textOfUnits [] units))) :: tokens more
          | none => [.bad .invalidJson]
        else if c.isAlpha || (c == '-' && rest.head? == some 'I') then
          wordToken (c :: rest.takeWhile Char.isAlpha) :: tokens (rest.dropWhile Char.isAlpha)
        else if isNumberChar c then
          numberToken (c :: rest.takeWhile isNumberChar) :: tokens (rest.dropWhile isNumberChar)
        else [.bad .invalidJson]
termination_by cs.length
decreasing_by
  all_goals simp only [List.length_cons]
  · omega
  · omega
  · omega
  · exact Nat.lt_succ_of_le (List.dropWhile_sublist _).length_le
  · exact Nat.lt_succ_of_le (List.dropWhile_sublist _).length_le

end DefinitionTree.Json
