/-
DefinitionTree/Json/Writer.lean

Trees as JSON text.

Three forms are written.  The compact form has no blanks and keeps the order
of entries; the canonical form is the compact form with the entries of every
mapping sorted by key, so it does not depend on their order; the pretty form
is indented by two columns.  Only the quotation mark, the backslash and
controls are escaped.  A key that is a number, a truth value or null is
written as the text of that value; a reference cannot be a key.  An integer
with too many digits cannot be written at all.
-/
import DefinitionTree.Json.Stored
import DefinitionTree.Number.Notation
import DefinitionTree.Text.Quoted

namespace DefinitionTree.Json

/-! ### Texts and scalars -/

/-- One character inside a JSON string. -/
def escapeChar (c : Char) : List Char :=
  if c = '"' then ['\\', '"']
  else if c = '\\' then ['\\', '\\']
  else if c = '\n' then ['\\', 'n']
  else if c = '\r' then ['\\', 'r']
  else if c = '\t' then ['\\', 't']
  else if c.toNat = 8 then ['\\', 'b']
  else if c.toNat = 12 then ['\\', 'f']
  else if c.toNat < 32 then '\\' :: 'u' :: Text.hex 4 c.toNat
  else [c]

/-- A JSON string. -/
def string (s : String) : List Char := '"' :: (s.toList.flatMap escapeChar ++ ['"'])

/-- A floating-point number in JSON. -/
def number (x : Binary64) : List Char := (x.write "Infinity" "NaN").toList

/-- An integer, unless it is too long. -/
def integer (n : Int) : Except Failure (List Char) :=
  if Numeral.isWritable n then .ok (Numeral.ofInt n) else .error .integerUnwritable

/-- The text of a key. -/
def keyText : Key → Except Failure String
  | .null => .ok "null"
  | .bool b => .ok (if b then "true" else "false")
  | .int n => String.ofList <$> integer n
  | .float x => .ok (x.write "Infinity" "NaN")
  | .text s => .ok s
  | .ref _ => .error .unwritableKey

/-- A key as a JSON string. -/
def key (k : Key) : Except Failure (List Char) := string <$> keyText k

/-- Texts with a separator between two. -/
def separated (mark : List Char) : List (List Char) → List Char
  | [] => []
  | [cs] => cs
  | cs :: rest => cs ++ mark ++ separated mark rest

/-! ### The compact form -/

mutual

/-- A tree without blanks. -/
def compact : Tree → Except Failure (List Char)
  | .null => .ok "null".toList
  | .bool b => .ok (if b then "true" else "false").toList
  | .int n => integer n
  | .float x => .ok (number x)
  | .text s => .ok (string s)
  | .ref id _ => .ok ('{' :: (string refKey ++ ':' :: (string id.fullName ++ ['}'])))
  | .list items => do return '[' :: (separated [','] (← compactItems items) ++ [']'])
  | .map entries => do return '{' :: (separated [','] (← compactEntries entries) ++ ['}'])

/-- The items of a list, each without blanks. -/
def compactItems : List Tree → Except Failure (List (List Char))
  | [] => .ok []
  | t :: rest => do
    let t ← compact t
    return t :: (← compactItems rest)

/-- The entries of a mapping, each without blanks. -/
def compactEntries : Entries → Except Failure (List (List Char))
  | [] => .ok []
  | (k, t) :: rest => do
    let k ← key k
    let t ← compact t
    return (k ++ ':' :: t) :: (← compactEntries rest)

end

/-- The compact form of a tree. -/
def compactText (t : Tree) : Except Failure String := String.ofList <$> compact t

/-! ### The canonical form -/

/-- The order of keys: by the code points of their texts. -/
def keyLe (a b : Key × Tree) : Bool :=
  match keyText a.1, keyText b.1 with
  | .ok s, .ok t => s ≤ t
  | _, _ => true

mutual

/-- The tree with the entries of every mapping sorted by key. -/
def sorted : Tree → Tree
  | .list items => .list (sortedItems items)
  | .map entries => .map ((sortedEntries entries).mergeSort keyLe)
  | t => t

/-- The items of a list, each sorted inside. -/
def sortedItems : List Tree → List Tree
  | [] => []
  | t :: rest => sorted t :: sortedItems rest

/-- The entries of a mapping, each sorted inside. -/
def sortedEntries : Entries → Entries
  | [] => []
  | (k, t) :: rest => (k, sorted t) :: sortedEntries rest

end

/-- The canonical form of a tree. -/
def canonicalText (t : Tree) : Except Failure String := compactText (sorted t)

/-! ### The pretty form -/

/-- A line break and the indentation of a depth. -/
def newLine (depth : Nat) : List Char := '\n' :: List.replicate (2 * depth) ' '

/-- Parts on lines of their own between two brackets. -/
def block (opening closing : Char) (depth : Nat) (parts : List (List Char)) : List Char :=
  match parts with
  | [] => [opening, closing]
  | parts =>
    opening :: (newLine (depth + 1) ++ separated (',' :: newLine (depth + 1)) parts
      ++ newLine depth ++ [closing])

mutual

/-- A tree indented, `depth` levels down. -/
def pretty (depth : Nat) : Tree → Except Failure (List Char)
  | .list items => do return block '[' ']' depth (← prettyItems (depth + 1) items)
  | .map entries => do return block '{' '}' depth (← prettyEntries (depth + 1) entries)
  | t => compact t

/-- The items of a list, each indented. -/
def prettyItems (depth : Nat) : List Tree → Except Failure (List (List Char))
  | [] => .ok []
  | t :: rest => do
    let t ← pretty depth t
    return t :: (← prettyItems depth rest)

/-- The entries of a mapping, each indented. -/
def prettyEntries (depth : Nat) : Entries → Except Failure (List (List Char))
  | [] => .ok []
  | (k, t) :: rest => do
    let k ← key k
    let t ← pretty depth t
    return (k ++ ':' :: ' ' :: t) :: (← prettyEntries depth rest)

end

/-- The pretty form of a tree. -/
def prettyText (t : Tree) : Except Failure String := String.ofList <$> pretty 0 t.stored

end DefinitionTree.Json
