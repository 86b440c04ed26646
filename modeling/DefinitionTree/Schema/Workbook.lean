/-
DefinitionTree/Schema/Workbook.lean

The schema of workbook definitions.

A workbook has a header and four collections: data views, pivots, charts and
dataset links.  Each item of a collection is a union with a single variant, so
in canonical form it stands under its tag.  Pivots, charts and links keep
their layouts opaque.
-/
import DefinitionTree.Schema.Shared

namespace DefinitionTree.Schema

/-- The name of the workbook kind and of its root type. -/
def workbookName : String := "workbook"

/-- A reference to a type of workbooks. -/
def wb (name : String) : TypeRef := own workbookName name

/-- A plain type of workbooks. -/
def wbType (name : String) (fields : List Field) : ObjectType :=
  ownType workbookName name fields false false

/-- A union of workbooks with a single variant. -/
def wbUnion (name variant : String) (type : TypeRef) : ObjectType :=
  ownType workbookName name [plain variant type] true false

/-- A truth value that is false where it is missing. -/
def falseByDefault (name : String) : Field :=
  { name, type := boolean, annotations := { default? := some (.bool false) } }

/-- The fields of every component: data view, pivot, chart or link. -/
def componentFields : List Field := [
  plain "applicationId" unknown,
  plain "datasets" (listOf string),
  plain "id" unknown,
  plain "name" (wb "translation"),
  plain "scriptId" string,
  plain "version" string,
  plain "workbook" string]

/-- The types of conditional formats. -/
def formatTypes : List ObjectType := [
  wbType "rgbColor" [plain "blue" number, plain "green" number, plain "red" number],
  wbUnion "color" "rgbColor" (wb "rgbColor"),
  wbType "style"
    [plain "backgroundColor" (wb "color"), plain "fontColor" (wb "color"),
      plain "fontStyle" string],
  wbType "conditionalFormatFilter"
    [plain "expressions" (listOf (wb "criteria_expression")), plain "operator" (wb "operator")],
  wbUnion "conditionalFormatFilterItem" "conditionalFormatFilter" (wb "conditionalFormatFilter"),
  wbType "conditionalFormatRule"
    [plain "filter" (wb "conditionalFormatFilterItem"), plain "id" string,
      plain "style" (wb "style")],
  wbUnion "conditionalFormatRuleItem" "conditionalFormatRule" (wb "conditionalFormatRule"),
  wbType "cellConditionalFormat"
    [plain "formatRules" (listOf (wb "conditionalFormatRuleItem")), plain "id" string],
  wbUnion "conditionalFormat" "cellConditionalFormat" (wb "cellConditionalFormat")]

/-- The types of data views. -/
def dataViewTypes : List ObjectType := [
  wbType "sorting"
    [falseByDefault "caseSensitive", plain "direction" string, plain "localeId" string,
      falseByDefault "nullFirst", plain "order" number],
  wbType "dataViewColumn"
    [plain "conditionalFormat" (listOf (wb "conditionalFormat")),
      plain "criterion" (wb "criteria"), plain "customLabel" (wb "translation"),
      plain "dataSetColumnId" number, plain "datasetScriptId" string,
      plain "field" (wb "fieldOrFormula"), plain "fieldStateName" string,
      plain "sorting" (wb "sorting"),
      plain "targetFieldContext" (wb "criteria_TargetFieldContext"), plain "width" number],
  wbType "dataView"
    (componentFields ++ [plain "columns" (listOf (wb "dataViewColumn")), plain "order" number]),
  wbUnion "dataViewItem" "dataView" (wb "dataView")]

/-- The types of pivots, charts and dataset links. -/
def layoutTypes : List ObjectType := [
  wbType "pivot"
    (componentFields ++ [omitted "definition" unknown, omitted "format" unknown]),
  wbUnion "pivotItem" "pivot" (wb "pivot"),
  wbType "chart"
    (componentFields ++ [plain "category" string, omitted "definition" unknown,
      omitted "format" unknown, plain "subType" string, plain "type" string]),
  wbUnion "chartItem" "chart" (wb "chart"),
  wbType "dsLink" (componentFields ++ [omitted "mapping" unknown]),
  wbUnion "dsLinkItem" "dsLink" (wb "dsLink")]

/-- The type of the header. -/
def headerType : ObjectType :=
  ownType workbookName "workbook"
    [plain "applicationId" unknown, plain "chartIDs" (listOf string),
      plain "dataViewIDs" (listOf string), plain "description" (wb "translation"),
      plain "id" unknown, plain "name" (wb "translation"), plain "ownerId" number,
      plain "pivotIDs" (listOf string), plain "scriptId" string, plain "version" string] true true

/-- The schema of workbook definitions. -/
def workbook : Graph where
  root := {
    name := workbookName
    fields := envelope workbookName "^custworkbook[0-9a-z_]+" ++ [
      plain "Workbook" (wb "workbook"),
      plain "charts" (listOf (wb "chartItem")),
      plain "dataViews" (listOf (wb "dataViewItem")),
      plain "dsLinks" (listOf (wb "dsLinkItem")),
      plain "pivots" (listOf (wb "pivotItem"))] }
  others := shared workbookName ++ [dependencies workbookName, headerType] ++ formatTypes
    ++ dataViewTypes ++ layoutTypes

end DefinitionTree.Schema
