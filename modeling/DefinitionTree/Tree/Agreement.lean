/-
DefinitionTree/Tree/Agreement.lean

When two trees hold the same value.

Numbers agree if they are equal as numbers, whatever their kind, and truth
values count as one and zero; references agree if their ids are equal; lists
agree item by item, and mappings key by key in any order.
-/
import DefinitionTree.Tree.Basic

namespace DefinitionTree.Tree

/-- Two scalars or references hold the same value. -/
def scalarsAgree (t u : Tree) : Bool :=
  match t.key?, u.key? with
  | some a, some b => a.same b
  | _, _ => false

mutual

/-- The two trees hold the same value. -/
def agrees : Tree → Tree → Bool
  | .list xs, u =>
    match u with
    | .list ys => itemsAgree xs ys
    | _ => false
  | .map es, u =>
    match u with
    | .map fs => es.length == fs.length && entriesAgree es fs
    | _ => false
  | .null, u => scalarsAgree .null u
  | .bool b, u => scalarsAgree (.bool b) u
  | .int n, u => scalarsAgree (.int n) u
  | .float x, u => scalarsAgree (.float x) u
  | .text s, u => scalarsAgree (.text s) u
  | .ref id _, u => scalarsAgree (.ref id .null) u

/-- The two lists have the same length and agree item by item. -/
def itemsAgree : List Tree → List Tree → Bool
  | [], ys => ys.isEmpty
  | x :: xs, ys =>
    match ys with
    | [] => false
    | y :: ys => x.agrees y && itemsAgree xs ys

/-- Each entry of the first mapping agrees with one of the second. -/
def entriesAgree : Entries → Entries → Bool
  | [], _ => true
  | (k, t) :: rest, fs =>
    match Entries.get? k fs with
    | none => false
    | some u => t.agrees u && entriesAgree rest fs

end

end DefinitionTree.Tree
