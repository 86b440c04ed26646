/-
DefinitionTree/Settings/Basic.lean

The settings of the transforms, and how they are read.

The defaults are the conventions of definition files.  A settings object may
replace any of them and may hold nothing else.
-/
import DefinitionTree.Json.Reader
import DefinitionTree.Settings.Form

namespace DefinitionTree

/-- What the transforms may be told. -/
structure Settings where
  /-- tags that are dropped, instead of nesting the variant under them -/
  ignoredTags : List String := ["workbook", "dataSet", "formula"]
  /-- keys whose values get the key back as their tag -/
  discriminatedKeys : List String := ["formula"]
  /-- what ids of string collections start with -/
  collectionStart : String := "custcollectiontranslations"
  /-- definitions are written with line breaks and indentation -/
  pretty : Bool := true
  /-- the indentation of one level -/
  indent : String := "  "
deriving DecidableEq, Repr, Inhabited

namespace Settings

/-! ### Reading settings -/

/-- The names of the settings, in the order in which issues are reported. -/
def names : List String :=
  ["ignored_discriminators", "discriminated_keys", "translation_prefix", "pretty_xml",
    "xml_indent"]

/-- The settings that the entries of an object describe. -/
def ofEntries (es : Entries) : Form Settings :=
  let standard : Settings := {}
  let settings : Form Settings := Form.and (Form.and (Form.and (Form.and (Form.and (.ok Settings.mk)
    (Form.field "ignored_discriminators" standard.ignoredTags Form.textSet es))
    (Form.field "discriminated_keys" standard.discriminatedKeys Form.textSet es))
    (Form.field "translation_prefix" standard.collectionStart Form.text es))
    (Form.field "pretty_xml" standard.pretty Form.truth es))
    (Form.field "xml_indent" standard.indent Form.text es)
  settings.also (Form.noOthers names es)

/-- The settings that an object describes. -/
def ofTree (t : Tree) : Form Settings := Form.object ofEntries t

/-- The settings in a file with this path and content; there may be no such
file. -/
def ofFile (path : String) (content : Option String) : Except Failure Settings :=
  match content with
  | none => .error (.unreadableConfig path)
  | some content =>
    match Json.parse content with
    | .error .invalidJson => .error (.unreadableConfig path)
    | .error e => .error e
    | .ok t =>
      match ofTree t with
      | .ok s => .ok s
      | .error issues => .error (.invalidConfig path issues)

end Settings

end DefinitionTree
