/-
DefinitionTree/Schema/AnnotationForm.lean

Reading the annotations of a field from an object.

The annotations are given beside the owner, the name and the type of a field,
so none of them may have one of those names.
-/
import DefinitionTree.Schema.Graph
import DefinitionTree.Settings.Form

namespace DefinitionTree

open Form in
/-- The restriction that the entries of an object describe. -/
def Restriction.ofEntries (es : Entries) : Form Restriction :=
  let given {α : Type} (read : Tree → Form α) (t : Tree) : Form (Option α) := some <$> read t
  let form : Form Restriction := Form.and (Form.and (Form.and (.ok Restriction.mk)
    (field "values" none (given (nullable (texts "tuple_type"))) es))
    (field "regex" none (given (nullable text)) es))
    (field "max_length" none (given (nullable integer)) es)
  form.also (noOthers ["values", "regex", "max_length"] es)

namespace Annotations

/-- The names that the properties of a field take. -/
def propertyNames : List String := ["self", "owner", "name", "type_ref"]

/-- The names of the annotations, in the order in which issues are reported. -/
def names : List String :=
  ["default_value", "omit_on_reconstruct", "required", "is_attribute", "restriction"]

open Form in
/-- The annotations that the entries of an object describe. -/
def formOfEntries (es : Entries) : Form Annotations :=
  let given {α : Type} (read : Tree → Form α) (t : Tree) : Form (Option α) := some <$> read t
  let form : Form Annotations := Form.and (Form.and (Form.and (Form.and (Form.and (.ok Annotations.mk)
    (field "default_value" none (given .ok) es))
    (field "omit_on_reconstruct" none (given truth) es))
    (field "required" none (given truth) es))
    (field "is_attribute" none (given truth) es))
    (field "restriction" none (given (nullable (object Restriction.ofEntries))) es)
  form.also (noOthers names es)

/-- An annotation has the name of one of the field's own properties. -/
def clashes (es : Entries) : Bool :=
  propertyNames.any fun name => Entries.has (.text name) es

/-- The annotations that the entries of an object describe. -/
def ofEntries (es : Entries) : Except Failure Annotations :=
  match formOfEntries es with
  | .ok a => .ok a
  | .error issues => .error (.invalidSettings issues)

end Annotations

end DefinitionTree
