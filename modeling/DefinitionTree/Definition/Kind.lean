/-
DefinitionTree/Definition/Kind.lean

The kinds of definitions.

A definition is that of a workbook or of a dataset.  The kind decides the
schema, the tag that marks the root of the definition, and whether what is
deployed has summaries beside the definition.  The tag of a dataset stands at
the root itself; that of a workbook stands in its header.
-/
import DefinitionTree.Failure
import DefinitionTree.Schema.Dataset
import DefinitionTree.Schema.Workbook
import DefinitionTree.Wire.Sentinel

namespace DefinitionTree

/-! ### Kinds -/

/-- A kind of definitions. -/
inductive Kind where
  | workbook
  | dataset
deriving DecidableEq, Repr

namespace Kind

/-- All kinds, in the order in which definitions are fetched. -/
def all : List Kind := [.workbook, .dataset]

/-- The name of a kind, which is the type name of its instances. -/
def name : Kind → String
  | .workbook => Schema.workbookName
  | .dataset => Schema.datasetName

/-- The kind with this name. -/
def ofName? (name : String) : Option Kind := all.find? fun k => k.name = name

/-- The kind with this name; it fails if there is none. -/
def ofName (name : String) : Except Failure Kind :=
  match ofName? name with
  | some k => .ok k
  | none => .error (.unsupportedKind name)

@[simp] theorem ofName?_name (k : Kind) : ofName? k.name = some k := by
  cases k <;> rfl

/-- The schema of definitions of a kind. -/
def schema : Kind → Graph
  | .workbook => Schema.workbook
  | .dataset => Schema.dataset

/-- What is deployed has summaries beside the definition. -/
def hasSummaries : Kind → Bool
  | .workbook => true
  | .dataset => false

/-! ### The tag of the root -/

/-- The tag that marks the root of a definition. -/
def rootTag : Kind → String
  | .workbook => "workbook"
  | .dataset => "dataSet"

/-- The key of a workbook's header. -/
def headerKey : Key := .text "Workbook"

/-- The entries with the tag in front, in place of any other. -/
def tagged (k : Kind) (es : Entries) : Entries :=
  (Wire.tagKey, .text k.rootTag) :: Entries.without [Wire.tagKey] es

/-- The entries of a mapping's header, or none if the header is no mapping. -/
def header (es : Entries) : Entries := ((Entries.get? headerKey es).bind Tree.entries?).getD []

/-- The root of a definition with its tag put in. -/
def tagRoot (k : Kind) (es : Entries) : Entries :=
  match k with
  | .dataset => k.tagged es
  | .workbook => es.set headerKey (.map (k.tagged (header es)))

end Kind

end DefinitionTree
