/-
DefinitionTree/Definition/Deploy.lean

Deploying: from a canonical value to a definition.

The target expects the name, the script id and the dependencies of an instance
as they are, and everything else written as a definition: completed, encoded
for the wire, tagged, and with the name put in.  Workbooks have summaries
besides.
-/
import DefinitionTree.Canonical.Completion
import DefinitionTree.Definition.Fetch
import DefinitionTree.Definition.Name
import DefinitionTree.Wire.Encoding

namespace DefinitionTree

/-- The fields of an instance that are no part of its definition. -/
def outerFields : List String := ["scriptid", "name", "definition", "dependencies"]

/-- The wire form of a definition. -/
def wireForm (settings : Settings) (graph : Graph) (place : ElementId) (t : Tree) :
    Except Failure Tree := do
  let t ← graph.complete place t
  return Wire.encode settings.discriminatedKeys t

/-- How definitions are written. -/
def Settings.style (settings : Settings) : Xml.Style := ⟨settings.pretty, settings.indent.toList⟩

/-- An entry of a value, unless it is null. -/
def presentEntry (name : String) (es : Entries) : Entries :=
  match Entries.field? name es with
  | some .null => []
  | some t => [(.text name, t)]
  | none => []

/-- The entries of the definition of an instance, as they are written. -/
def writtenEntries (settings : Settings) (kind : Kind) (i : Instance) : Except Failure Entries := do
  let t ← wireForm settings kind.schema i.id
    (.map (Entries.without (outerFields.map Key.text) i.value))
  let es := kind.tagRoot (t.entries?.getD [])
  -- the name takes the place of the definition's own name, if it has one
  return match presentEntry "name" i.value with
    | [(k, name)] => es.set k (definitionName name)
    | _ => es

/-- The text of the definition of an instance. -/
def definitionOf (settings : Settings) (kind : Kind) (i : Instance) : Except Failure String := do
  Xml.write settings.style (.map (← writtenEntries settings kind i))

/-- The value of an instance that the target expects. -/
def deployInstance (settings : Settings) (kind : Kind) (i : Instance) : Except Failure Entries := do
  let text ← definitionOf settings kind i
  let es := presentEntry "name" i.value ++ presentEntry "scriptid" i.value
    ++ presentEntry "dependencies" i.value ++ [(definitionKey, .text text)]
  if kind.hasSummaries then return es.overlay (← Summary.entries i.value) else return es

/-- The value to deploy for a canonical value. -/
def deploy (settings : Settings) (kind : Kind) (name : Option String) (value : Entries) :
    Except Failure Entries :=
  deployInstance settings kind (kind.instanceOf name value)

end DefinitionTree
