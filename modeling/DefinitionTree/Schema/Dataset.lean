/-
DefinitionTree/Schema/Dataset.lean

The schema of dataset definitions.

The owner of a dataset is part of the definition, but the target keeps its own
owner whatever it is sent.
-/
import DefinitionTree.Schema.Shared

namespace DefinitionTree.Schema

/-- The name of the dataset kind and of its root type. -/
def datasetName : String := "dataset"

/-- The schema of dataset definitions. -/
def dataset : Graph where
  root := {
    name := datasetName
    isUnion := true
    ignoresTag := true
    fields := envelope datasetName "^custdataset[0-9a-z_]+" ++ [
      plain "applicationId" unknown,
      plain "audience" (own datasetName "audience"),
      plain "baseRecord" (own datasetName "baseRecord"),
      plain "columns" (listOf (own datasetName "column")),
      plain "criteria" (own datasetName "criteria"),
      plain "description" (own datasetName "translation"),
      plain "formulas" (listOf (own datasetName "fieldOrFormula")),
      plain "id" unknown,
      plain "ownerId" number,
      plain "version" string,
      plain "scriptId" unknown] }
  others := shared datasetName ++ [
    dependencies datasetName,
    ownType datasetName "audience"
      [plain "AudienceItems" (listOf unknown), plain "isPublic" boolean] false false,
    ownType datasetName "column"
      [plain "alias" string, plain "columnId" number,
        plain "field" (own datasetName "fieldOrFormula"),
        plain "label" (own datasetName "translation")] false false]

end DefinitionTree.Schema
