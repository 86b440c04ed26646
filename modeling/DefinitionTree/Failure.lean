/-
DefinitionTree/Failure.lean

What can go wrong, by cause.

Reading, writing and transforming definitions fail in a closed list of ways.
Each constructor is one cause and carries what a caller needs to act on it;
`Failure.message` is the only place where a cause gets its wording.
-/
import DefinitionTree.Text.Quoted

namespace DefinitionTree

/-! ### Causes -/

/-- Where a name stands in written markup. -/
inductive NamePlace where
  | element
  | attribute
deriving DecidableEq, Repr

/-- Why a key cannot be written as a name. -/
inductive NameFault where
  /-- the key is not text -/
  | notText
  /-- the name starts like an instruction or a declaration -/
  | leadingMark
  /-- the name holds an angle bracket -/
  | angleBracket
  /-- the name holds a slash -/
  | slash
  /-- the name holds a quotation mark or an apostrophe -/
  | quotes
  /-- the name holds an equals sign -/
  | equalsSign
  /-- the name holds a blank -/
  | blank
deriving DecidableEq, Repr

/-- One entry of a settings object that cannot be used: where it is, and the
name of the rule it breaks. -/
structure Issue where
  place : List String
  rule : String
deriving DecidableEq, Repr

/-- A cause of failure. -/
inductive Failure where
  /-- the text is not well-formed markup -/
  | malformed
  /-- the root element holds only text, shown here -/
  | rootHoldsText (shown : String)
  /-- an entity is declared, which definitions may not do -/
  | entityDeclared
  /-- an integer literal has more digits than are read -/
  | integerTooLong (digits : Nat)
  /-- an integer has more digits than are written -/
  | integerUnwritable
  /-- a key cannot be written as a name -/
  | unwritableName (place : NamePlace) (fault : NameFault)
  /-- a comment holds two hyphens in a row -/
  | commentHyphens
  /-- a comment ends in a hyphen -/
  | commentEndsInHyphen
  /-- no document kind has this name -/
  | unsupportedKind (name : String)
  /-- a type is declared a second time, or is built in -/
  | typeDeclaredTwice (name : String)
  /-- a field is added to a type that is not declared -/
  | ownerUndeclared (owner field : String)
  /-- a field is added a second time -/
  | fieldDeclaredTwice (owner field : String)
  /-- the root of a schema is not declared -/
  | rootUndeclared (name : String)
  /-- a field refers to a type that is not declared -/
  | danglingReference (owner reference : String)
  /-- an annotation has the name of one of the field's own properties -/
  | annotationClash
  /-- a settings object breaks these rules -/
  | invalidSettings (issues : List Issue)
  /-- a settings file cannot be read -/
  | unreadableConfig (path : String)
  /-- a settings file breaks these rules -/
  | invalidConfig (path : String) (issues : List Issue)
  /-- an element id has fewer than two segments -/
  | invalidElementId (text : String)
  /-- a mapping, shown here, is no sentinel -/
  | notASentinel (shown : String)
  /-- a change of this action has no instance -/
  | changeWithoutInstance (action : String)
  /-- nothing has this name -/
  | unknownName (name : String)
  /-- a list or a mapping stands where a tag is needed -/
  | compoundTag
  /-- a reference stands where a key has to be written -/
  | unwritableKey
  /-- a scalar stands where items are expected -/
  | notIterable
  /-- something else stands where a mapping is expected -/
  | notAMapping
  /-- entries are taken from something that has none -/
  | noEntries
  /-- another element stands where an instance is expected -/
  | notAnInstance
  /-- an element that has no id is put into a store -/
  | elementWithoutId
  /-- filling in the default of a field calls for the same default again -/
  | endlessDefault (owner field : String)
  /-- a file does not exist -/
  | missingFile (path : String)
  /-- a folder stands where a file is expected -/
  | notAFile (path : String)
  /-- a file stands where a folder is expected -/
  | notAFolder (path : String)
  /-- a path holds the character with code zero, which no file name does -/
  | nullInPath
  /-- a text is no JSON -/
  | invalidJson
  /-- a file does not hold an object -/
  | objectExpected (path : String)
  /-- a file of string collections does not hold an object -/
  | collectionsExpected (path : String)
  /-- the item with this index in a list of pairs has another length -/
  | pairExpected (index length : Nat)
deriving DecidableEq, Repr

/-! ### Wording -/

/-- The name of a place. -/
def NamePlace.text : NamePlace → String
  | .element => "element"
  | .attribute => "attribute"

/-- The wording of a name that cannot be written. -/
def NameFault.message (place : NamePlace) : NameFault → String
  | .notText => place.text ++ " name must be a string"
  | .leadingMark => "Invalid " ++ place.text ++ " name: cannot start with \"?\" or \"!\""
  | .angleBracket => "Invalid " ++ place.text ++ " name: \"<\" or \">\" not allowed"
  | .slash => "Invalid " ++ place.text ++ " name: \"/\" not allowed"
  | .quotes => "Invalid " ++ place.text ++ " name: quotes not allowed"
  | .equalsSign => "Invalid " ++ place.text ++ " name: \"=\" not allowed"
  | .blank => "Invalid " ++ place.text ++ " name: whitespace not allowed"

/-- A text between apostrophes. -/
def Failure.marked (s : String) : String := "'" ++ s ++ "'"

open Failure in
/-- The wording of a failure. -/
def Failure.message : Failure → String
  | .malformed => "Definition is not well-formed XML"
  | .rootHoldsText shown => "Definition root holds text, not elements: " ++ shown
  | .entityDeclared => "entities are disabled"
  | .integerTooLong n =>
    "Exceeds the limit (4300 digits) for integer string conversion: value has " ++ toString n
      ++ " digits; use sys.set_int_max_str_digits() to increase the limit"
  | .integerUnwritable =>
    "Exceeds the limit (4300 digits) for integer string conversion; "
      ++ "use sys.set_int_max_str_digits() to increase the limit"
  | .unwritableName place fault => fault.message place
  | .commentHyphens => "Comment text cannot contain '--'"
  | .commentEndsInHyphen => "Comment text cannot end with '-'"
  | .unsupportedKind name =>
    "Unsupported document kind " ++ marked name ++ ". Supported kinds: dataset, workbook"
  | .typeDeclaredTwice name => "Type " ++ marked name ++ " declared twice"
  | .ownerUndeclared owner field =>
    "Cannot add field " ++ marked field ++ " to undeclared type " ++ marked owner
  | .fieldDeclaredTwice owner field => "Field " ++ marked (owner ++ "." ++ field) ++ " declared twice"
  | .rootUndeclared name => "Root type " ++ marked name ++ " was never declared"
  | .danglingReference owner reference =>
    "Type " ++ marked owner ++ " refers to undeclared type " ++ marked reference
  | .annotationClash => "An annotation may not be named after a property of the field"
  | .invalidSettings _ => "Invalid settings"
  | .unreadableConfig path => "Cannot read config " ++ marked path
  | .invalidConfig path _ => "Invalid config " ++ marked path
  | .invalidElementId text =>
    "Invalid element id " ++ marked text ++ ": expected '<adapter>.<type>[...]'"
  | .notASentinel shown => "Not a sentinel wrapper: " ++ shown
  | .changeWithoutInstance action => "Change of type " ++ marked action ++ " has no instance data"
  | .unknownName name => name
  | .compoundTag => "A tag must be a scalar"
  | .unwritableKey => "A key must be a scalar"
  | .notIterable => "A collection must hold items"
  | .notAMapping => "A definition must be a mapping"
  | .noEntries => "Only a mapping has entries"
  | .notAnInstance => "Only an instance can be changed"
  | .elementWithoutId => "Only an element with an id can be stored"
  | .endlessDefault owner field => "The default of " ++ marked (owner ++ "." ++ field) ++ " contains itself"
  | .missingFile path => "[Errno 2] No such file or directory: " ++ Text.quoted path
  | .notAFile path => "[Errno 21] Is a directory: " ++ Text.quoted path
  | .notAFolder path => "[Errno 20] Not a directory: " ++ Text.quoted path
  | .nullInPath => "embedded null byte"
  | .invalidJson => "invalid JSON"
  | .objectExpected path => "Expected a JSON object in " ++ marked path
  | .collectionsExpected path =>
    "Expected a JSON object of translation collections in " ++ marked path
  | .pairExpected index n =>
    "dictionary update sequence element #" ++ toString index ++ " has length " ++ toString n
      ++ "; 2 is required"

end DefinitionTree
