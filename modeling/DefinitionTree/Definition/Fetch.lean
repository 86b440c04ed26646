/-
DefinitionTree/Definition/Fetch.lean

Fetching: from a definition to a canonical value.

An instance that was fetched holds its definition as a text.  The text is read,
brought into canonical form against the schema of its kind, and its entries
take the place of the text.  The name of an instance stands outside its
definition, so the definition's own name is left out, and so are summaries,
which can be made again.  A definition of which nothing is left stays a text.
-/
import DefinitionTree.Canonical.Normalization
import DefinitionTree.Definition.Kind
import DefinitionTree.Definition.Summary
import DefinitionTree.Tree.Pairs
import DefinitionTree.Xml.Document

namespace DefinitionTree

/-! ### Instances -/

/-- The key of the definition. -/
def definitionKey : Key := .text "definition"

/-- The text of an instance's definition. -/
def definitionText? (es : Entries) : Option String :=
  match Entries.get? definitionKey es with
  | some (.text s) => some s
  | _ => none

/-- The name of an instance of a kind: the one that is given, or else its script id, or
else the name of the kind.  The name is no part of any value.  A script id that shows an
integer that is too long has a spelling here, too; statements about values that come
without a name ask for a script id that can be written (`Tree.isWritable`). -/
def instanceName (kind : Kind) (name : Option String) (value : Entries) : String :=
  match name.filter (· ≠ ""), (Entries.field? "scriptid" value).filter Tree.isTruthy with
  | some name, _ => name
  | none, some id => id.plain
  | none, none => kind.name

/-- The instance of a kind with a value. -/
def Kind.instanceOf (kind : Kind) (name : Option String) (value : Entries) : Instance :=
  { name := instanceName kind name value, typeName := kind.name, value }

/-- The entries that a tree gives to an instance.  The script id of an instance
without a name is looked up in a mapping; with a name, pairs will do. -/
def Tree.instanceEntries (name : Option String) : Tree → Except Failure Entries
  | .map es => .ok es
  | t => if name.any (· ≠ "") then t.asEntries else .error .notAMapping

/-- The instance as one of a kind. -/
def Kind.retype (kind : Kind) (i : Instance) : Instance := { i with typeName := kind.name }

/-! ### Fetching -/

/-- What remains of an instance's value beside its definition. -/
def Kind.remainder (kind : Kind) (value : Entries) : Entries :=
  Entries.without
    (definitionKey :: if kind.hasSummaries then Summary.fields.map Key.text else []) value

/-- The canonical form of an instance's definition, if anything is left of
it. -/
def canonicalDefinition (settings : Settings) (lookup : Option Lookup) (kind : Kind)
    (i : Instance) (s : String) : Journal (Option Tree) := do
  let es ← Journal.of (Xml.definition s)
  Normalizer.normalize ⟨kind.schema, lookup, settings⟩ i.id (.map (Entries.dropField "name" es))

/-- The value of an instance after fetching. -/
def fetchInstance (settings : Settings) (lookup : Option Lookup) (kind : Kind) (i : Instance) :
    Journal Entries :=
  match definitionText? i.value with
  | none => do
    Journal.note .debug .definitions (i.id.fullName ++ " has no definition to parse")
    return i.value
  | some s => do
    match ← canonicalDefinition settings lookup kind i s with
    | none => return i.value
    -- the name of the instance stands outside its definition
    | some (.map es) => return (kind.remainder i.value).overlay (Entries.dropField "name" es)
    | some _ => throw .notAMapping

/-- The canonical value of a fetched value. -/
def fetch (settings : Settings) (lookup : Option Lookup) (kind : Kind) (name : Option String)
    (value : Entries) : Journal Entries :=
  fetchInstance settings lookup kind (kind.instanceOf name value)

end DefinitionTree
