/-
DefinitionTree/Tree/Pairs.lean

Mappings given as pairs.

Where entries are wanted, a mapping will do, and so will a sequence of pairs: a
key and its value.  A list is the sequence of its items, a mapping that of its
keys, and a text that of its characters.  Of pairs with the same key the last
one counts, at the place of the first.
-/
import DefinitionTree.Failure
import DefinitionTree.Tree.Basic

namespace DefinitionTree

/-- The items of a sequence. -/
def Tree.sequence : Tree → Except Failure (List Tree)
  | .list ts => .ok ts
  | .map es => .ok (es.map fun e => Tree.ofKey e.1)
  | .text s => .ok (s.toList.map fun c => .text (String.ofList [c]))
  | _ => .error .notIterable

/-- The entries that pairs stand for, from an index on. -/
def Entries.ofPairs (index : Nat) : List Tree → Except Failure Entries
  | [] => .ok []
  | t :: rest => do
    match ← t.sequence with
    | [k, v] =>
      match k.key? with
      | some k => return (k, v) :: (← Entries.ofPairs (index + 1) rest)
      | none => throw .compoundTag
    | ts => throw (.pairExpected index ts.length)

/-- The entries of a mapping, or those that pairs stand for. -/
def Tree.asEntries : Tree → Except Failure Entries
  | .map es => .ok es
  | t => do return Entries.overlay [] (← Entries.ofPairs 0 (← t.sequence))

end DefinitionTree
