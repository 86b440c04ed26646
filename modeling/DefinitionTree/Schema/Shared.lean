/-
DefinitionTree/Schema/Shared.lean

The types that workbooks and datasets share.

Columns, criteria and formulas look the same in both kinds of definitions.
Each kind has its own copy of their types, named after the kind.  A formula
holds fields or formulas, and a condition holds criteria, so the types are
mutually recursive.
-/
import DefinitionTree.Schema.Graph

namespace DefinitionTree.Schema

/-! ### Building blocks -/

/-- A reference to a builtin type. -/
abbrev string : TypeRef := .primitive .string
abbrev number : TypeRef := .primitive .number
abbrev boolean : TypeRef := .primitive .boolean
abbrev serviceId : TypeRef := .primitive .serviceId
abbrev unknown : TypeRef := .primitive .unknown

/-- A reference to a list. -/
abbrev listOf (item : TypeRef) : TypeRef := .list item

/-- A field without annotations. -/
def plain (name : String) (type : TypeRef) : Field := { name, type }

/-- A string field whose values are restricted to a few. -/
def oneOf (name : String) (values : List String) : Field :=
  { name, type := string,
    annotations := { restriction? := some (some { values := some (some values) }) } }

/-- A field that is not put back when it is missing. -/
def omitted (name : String) (type : TypeRef) : Field :=
  { name, type, annotations := { omitted? := some true } }

/-! ### Restricted values -/

/-- The operators of criteria. -/
def operatorCodes : List String := [
  "AND", "OR",
  "ANY_OF",
  "EMPTY", "EMPTY_NOT", "CONTAIN", "CONTAIN_NOT", "ENDWITH", "ENDWITH_NOT", "IS", "IS_NOT",
  "START_WITH", "START_WITH_NOT",
  "LESS", "GREATER", "EQUAL", "EQUAL_NOT", "GREATER_OR_EQUAL", "LESS_OR_EQUAL", "BETWEEN",
  "BETWEEN_NOT"]

/-- The contexts in which criteria read a field. -/
def fieldContexts : List String :=
  ["DEFAULT", "IDENTIFIER", "UNCONSOLIDATED", "HIERARCHY_IDENTIFIER"]

/-- The types of formula results. -/
def formulaTypes : List String := [
  "INTEGER", "BOOLEAN", "DATE", "DATETIME", "FLOAT", "STRING", "CLOBTEXT", "PERCENT", "DURATION"]

/-- The states of a field that may be used. -/
def validityStates : List String := ["VALID"]

/-! ### The shared types -/

/-- The reference to a kind's own copy of a shared type. -/
def own (kind name : String) : TypeRef := .named (kind ++ "_" ++ name)

/-- A kind's own copy of a shared type. -/
def ownType (kind name : String) (fields : List Field) (isUnion ignoresTag : Bool) : ObjectType :=
  ⟨kind ++ "_" ++ name, fields, isUnion, ignoresTag⟩

/-- A kind's copies of the shared types. -/
def shared (kind : String) : List ObjectType := [
  ownType kind "translation" [plain "translationScriptId" string] false false,
  ownType kind "baseRecord" [plain "id" string, plain "label" string] false false,
  ownType kind "joinTrail"
    [plain "baseRecord" (own kind "baseRecord"), plain "joins" (listOf unknown)] false false,
  ownType kind "fieldReference"
    [plain "id" string, plain "joinTrail" (own kind "joinTrail"), plain "label" string,
      plain "uniqueId" string,
      { name := "fieldValidityState", type := string,
        annotations := {
          omitted? := some true
          restriction? := some (some { values := some (some validityStates) }) } }] false false,
  ownType kind "formula_formula"
    [oneOf "dataType" formulaTypes, plain "formulaSQL" string, plain "id" string,
      plain "label" (own kind "translation"), plain "uniqueId" string] true true,
  ownType kind "formula"
    [plain "fields" (listOf (own kind "fieldOrFormula")),
      plain "formula" (own kind "formula_formula")] false false,
  ownType kind "fieldOrFormula"
    [plain "fieldReference" (own kind "fieldReference"),
      plain "dataSetFormula" (own kind "formula")] true false,
  ownType kind "criteria_expression_value"
    [plain "type" string, plain "value" unknown] false false,
  ownType kind "criteria_expression"
    [plain "label" string, plain "subType" unknown, plain "uiData" (listOf string),
      plain "value" (own kind "criteria_expression_value")] false false,
  ownType kind "meta" [plain "selectorType" unknown, plain "subType" string] false false,
  ownType kind "operator" [oneOf "code" operatorCodes] false false,
  ownType kind "criteria_TargetFieldContext" [oneOf "name" fieldContexts] false false,
  ownType kind "filter"
    [plain "caseSensitive" boolean, plain "expressions" (listOf (own kind "criteria_expression")),
      plain "operator" (own kind "operator"),
      plain "targetFieldContext" (own kind "criteria_TargetFieldContext"),
      plain "field" (own kind "fieldOrFormula"), plain "fieldStateName" string,
      plain "meta" (own kind "meta")] false false,
  ownType kind "condition"
    [plain "children" (listOf (own kind "criteria")), plain "operator" (own kind "operator"),
      plain "targetFieldContext" (own kind "criteria_TargetFieldContext"),
      plain "meta" (own kind "meta"), plain "field" (own kind "fieldOrFormula"),
      plain "fieldStateName" string] false false,
  ownType kind "criteria"
    [plain "condition" (own kind "condition"), plain "filter" (own kind "filter")] true false]

/-- A kind's type of dependencies. -/
def dependencies (kind : String) : ObjectType :=
  ownType kind "dependencies"
    [{ name := "dependency", type := listOf string, annotations := { required? := some true } }]
    false false

/-- The fields that every definition has beside its content: they stay outside
of the definition's text and are never put back. -/
def envelope (kind : String) (idPattern : String) : List Field := [
  { name := "scriptid", type := serviceId,
    annotations := {
      omitted? := some true
      required? := some true
      attribute? := some true
      restriction? := some (some { regex := some (some idPattern) }) } },
  { name := "name", type := string,
    annotations := {
      omitted? := some true
      required? := some true
      restriction? := some (some { maxLength := some (some 50) }) } },
  omitted "dependencies" (own kind "dependencies"),
  omitted "definition" string]

end DefinitionTree.Schema
