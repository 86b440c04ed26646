/-
DefinitionTree/Json/Stored.lean

The stored form of a tree.

JSON has no references, so a stored tree holds a mapping with the single entry
`$ref` in place of each one, its value being the full name of the place
referred to.  `Tree.stored` puts these mappings in, and `Tree.ofStored` takes
them out again.
-/
import DefinitionTree.Failure
import DefinitionTree.Tree.Basic

namespace DefinitionTree

/-- The key of a stored reference. -/
def refKey : String := "$ref"

namespace Tree

/-! ### Storing -/

/-- The stored form of a reference. -/
def storedRef (id : ElementId) : Tree := .map [(.text refKey, .text id.fullName)]

mutual

/-- The stored form of a tree. -/
def stored : Tree → Tree
  | .ref id _ => storedRef id
  | .list items => .list (storedItems items)
  | .map entries => .map (storedEntries entries)
  | t => t

/-- The stored forms of a list's items. -/
def storedItems : List Tree → List Tree
  | [] => []
  | t :: rest => t.stored :: storedItems rest

/-- The entries of a mapping with their values stored. -/
def storedEntries : Entries → Entries
  | [] => []
  | (k, t) :: rest => (k, t.stored) :: storedEntries rest

end

/-! ### Taking out of store -/

/-- The full name in a stored reference. -/
def refName? : Entries → Option String
  | [(.text k, .text name)] => if k = refKey then some name else none
  | _ => none

/-- The reference with this full name; what it resolved to is not stored. -/
def refOfName (name : String) : Except Failure Tree :=
  match ElementId.ofFullName? name with
  | some id => .ok (.ref id .null)
  | none => .error (.invalidElementId name)

mutual

/-- The tree with this stored form.  It fails on a reference whose name is no
element id. -/
def ofStored : Tree → Except Failure Tree
  | .list items => do return .list (← ofStoredItems items)
  | .map entries =>
    match refName? entries with
    | some name => refOfName name
    | none => do return .map (← ofStoredEntries entries)
  | t => .ok t

/-- The items with these stored forms. -/
def ofStoredItems : List Tree → Except Failure (List Tree)
  | [] => .ok []
  | t :: rest => do
    let t ← t.ofStored
    return t :: (← ofStoredItems rest)

/-- The entries with these stored values. -/
def ofStoredEntries : Entries → Except Failure Entries
  | [] => .ok []
  | (k, t) :: rest => do
    let t ← t.ofStored
    return (k, t) :: (← ofStoredEntries rest)

end

end Tree

end DefinitionTree
