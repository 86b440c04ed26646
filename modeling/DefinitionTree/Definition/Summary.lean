/-
DefinitionTree/Definition/Summary.lean

Summaries of a workbook.

Beside the definition of a workbook stand lists of the pivots, the charts and
the tables in it, each with its script id.  They are made from the canonical
value: an item of a collection counts if it is a mapping whose variant has a
script id.
-/
import DefinitionTree.Failure
import DefinitionTree.Tree.Basic

namespace DefinitionTree

/-- How a summary is made and where it stands. -/
structure Summary where
  /-- the collection in the canonical value -/
  collection : String
  /-- the variant of the items that count -/
  variant : String
  /-- the field of the summary -/
  field : String
  /-- the name of the items of the summary -/
  item : String
deriving DecidableEq, Repr

namespace Summary

/-- The summaries of a workbook, in the order in which they stand. -/
def all : List Summary := [
  ⟨"pivots", "pivot", "pivots", "pivot"⟩,
  ⟨"charts", "chart", "charts", "chart"⟩,
  ⟨"dataViews", "dataView", "tables", "table"⟩]

/-- The fields of the summaries. -/
def fields : List String := all.map (·.field)

/-- The script id of an item that counts. -/
def scriptId? (s : Summary) (item : Tree) : Option Tree := do
  let es ← item.entries?
  let inner ← (Entries.field? s.variant es).bind Tree.entries?
  match Entries.field? "scriptId" inner with
  | some .null => none
  | t => t

/-- The record of an item that counts. -/
def record? (s : Summary) (item : Tree) : Option Tree :=
  (s.scriptId? item).map fun id => .map [(.text "scriptid", id)]

/-- The items of a collection.  A text and a mapping have none that could
count. -/
def items : Option Tree → Except Failure (List Tree)
  | some (.list ts) => .ok ts
  | some (.text _) => .ok []
  | some (.map _) => .ok []
  | some t => if t.isTruthy then .error .notIterable else .ok []
  | none => .ok []

/-- The summary of a value, as an entry. -/
def entry (s : Summary) (es : Entries) : Except Failure (Key × Tree) := do
  let ts ← items (Entries.field? s.collection es)
  return (.text s.field, .map [(.text s.item, .list (ts.filterMap s.record?))])

/-- All summaries of a value. -/
def entries (es : Entries) : Except Failure Entries := all.mapM fun s => s.entry es

end Summary

end DefinitionTree
