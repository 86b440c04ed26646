/-
DefinitionTree/Definition/Validity.lean

What to warn of before deploying.

The target does not deploy the pivots, charts and data links of a workbook.  A
workbook that holds any of them gives a warning, unless the change takes it
away.
-/
import DefinitionTree.Definition.Kind
import DefinitionTree.Element.Instance

namespace DefinitionTree

/-! ### Issues of changes -/

/-- How much an issue matters. -/
inductive Severity where
  | info
  | warning
  | error
deriving DecidableEq, Repr

/-- The name of a severity. -/
def Severity.text : Severity → String
  | .info => "Info"
  | .warning => "Warning"
  | .error => "Error"

/-- What is wrong with a change. -/
inductive ChangeIssue where
  /-- the workbook holds content that the target does not deploy -/
  | unsupportedContent
deriving DecidableEq, Repr

namespace ChangeIssue

/-- The code of an issue. -/
def code : ChangeIssue → String
  | .unsupportedContent => "UNSUPPORTED_WORKBOOK_CONTENT"

/-- How much the issue matters. -/
def severity : ChangeIssue → Severity
  | .unsupportedContent => .warning

/-- The issue in a sentence. -/
def message : ChangeIssue → String
  | .unsupportedContent =>
    "The deployment of this workbook will probably not have an effect on the target "
      ++ "environment as this workbook contains pivots, charts, or data links."

/-- The reason for the issue. -/
def details : ChangeIssue → String
  | .unsupportedContent =>
    "Deployment of workbooks that contain pivots, charts, or data links is not supported"

end ChangeIssue

/-- An issue of the change of an instance. -/
structure ChangeWarning where
  instanceId : String
  issue : ChangeIssue
deriving DecidableEq, Repr

/-! ### Workbooks -/

/-- The fields of a workbook that the target does not deploy. -/
def undeployedFields : List String := ["charts", "pivots", "datasetLinks", "dsLinks"]

/-- The value holds nothing that the target does not deploy. -/
def isDeployable (value : Entries) : Bool :=
  !undeployedFields.any fun name => (Entries.field? name value).any Tree.isTruthy

/-- The warnings for an instance that will be added or modified. -/
def instanceWarnings (i : Instance) : List ChangeWarning :=
  if i.typeName = Kind.workbook.name && !isDeployable i.value then
    [⟨i.id.fullName, .unsupportedContent⟩]
  else []

/-- The warnings for a change; only an instance can be added or modified. -/
def changeWarnings (c : Change Element) : Except Failure (List ChangeWarning) :=
  if c.isRemoval then .ok []
  else do return instanceWarnings (← (← c.data).asInstance)

/-- The warnings for changes. -/
def warnings (cs : List (Change Element)) : Except Failure (List ChangeWarning) :=
  List.flatten <$> cs.mapM changeWarnings

end DefinitionTree
