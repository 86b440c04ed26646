/-
DefinitionTree/Wire/Sentinel.lean

Sentinels: the mappings that mark a value's type on the wire.

Markup only holds text, so a definition marks what the text alone would not
tell: `{@_type: null}` is an absent value, `{@_type: array, _ITEM_: …}` a list,
`{@_type: boolean, #text: …}` a truth value, and `{@_type: string, #text: …}` a
text that reads as a number.

Main definitions:

* `Wire.sentinel?`: the sentinel a tree is, if it is one;
* `Wire.decode`: the value a sentinel stands for;
* `Wire.wrap`: the sentinel a value needs, if it needs one.
-/
import DefinitionTree.Failure
import DefinitionTree.Text.NumberLike
import DefinitionTree.Tree.Shown

namespace DefinitionTree.Wire

/-! ### Keys of the wire -/

/-- What the keys of attributes start with. -/
def attributeMark : String := "@_"

/-- The key of a union's tag. -/
def tagKey : Key := .text "_T_"

/-- The key of the type attribute, which makes a mapping a sentinel. -/
def typeKey : Key := .text "@_type"

/-- The key of an array's items. -/
def itemKey : Key := .text "_ITEM_"

/-- The key of an element's text, where it also has attributes or children. -/
def textKey : Key := .text "#text"

/-- The key under which canonical trees show the tag of a union that no type
declares. -/
def exposedKey : Key := .text "xmlType"

/-! ### Sentinels -/

/-- The types that sentinels mark. -/
inductive Sentinel where
  | null
  | array
  | boolean
  | string
deriving DecidableEq, Repr

/-- The value of the type attribute. -/
def Sentinel.name : Sentinel → String
  | .null => "null"
  | .array => "array"
  | .boolean => "boolean"
  | .string => "string"

/-- The sentinel type with this name. -/
def Sentinel.ofName? (s : String) : Option Sentinel :=
  if s = "null" then some .null
  else if s = "array" then some .array
  else if s = "boolean" then some .boolean
  else if s = "string" then some .string
  else none

/-- The sentinel type that a mapping's type attribute names. -/
def sentinelOf? (es : Entries) : Option Sentinel :=
  match Entries.get? typeKey es with
  | some (.text s) => Sentinel.ofName? s
  | _ => none

/-- The sentinel type of a tree, if it is a sentinel. -/
def sentinel? : Tree → Option Sentinel
  | .map es => sentinelOf? es
  | _ => none

/-- The type attribute of a sentinel. -/
def Sentinel.mark (s : Sentinel) : Key × Tree := (typeKey, .text s.name)

/-- The sentinel of an absent value. -/
def nullSentinel : Tree := .map [Sentinel.null.mark]

/-- The sentinel of a list without its items. -/
def bareArray : Tree := .map [Sentinel.array.mark]

/-- The sentinel of a list. -/
def arraySentinel (items : List Tree) : Tree :=
  .map [Sentinel.array.mark, (itemKey, .list items)]

/-- The tree is exactly the sentinel of an absent value or of a list without
items. -/
def isEmptySentinel : Tree → Bool
  | .map [(k, .text s)] => k.same typeKey && (s == "null" || s == "array")
  | _ => false

/-! ### Decoding -/

/-- The characters of a text in lower case, as far as the basic Latin letters
go. -/
def lowerCase (cs : List Char) : List Char := cs.map Char.toLower

/-- The truth value that a scalar stands for: only the word `true`, in any
case and with blanks around it, is true. -/
def truth : Tree → Bool
  | .bool b => b
  | t => lowerCase (Text.trim t.scalarText.toList) == "true".toList

/-- The items of an array: a lone value is its only item. -/
def items : Option Tree → List Tree
  | none => []
  | some .null => []
  | some (.list ts) => ts
  | some t => [t]

/-- What stands under the key of an element's text, or null. -/
def textIn (es : Entries) : Tree := (Entries.get? textKey es).getD .null

/-- The value that a sentinel of this type with these entries stands for.  An
absent value becomes the empty mapping.  Truth values and texts are made of the
text in the sentinel, which may be one that cannot be written. -/
def decodeAs (s : Sentinel) (es : Entries) : Except Failure Tree :=
  match s with
  | .null => .ok (.map [])
  | .array => .ok (.list (items (Entries.get? itemKey es)))
  | .boolean => (fun _ => .bool (truth (textIn es))) <$> (textIn es).toText
  | .string => .text <$> (textIn es).toText

/-- The value that a sentinel stands for.  The complaint about anything else shows it. -/
def decode (t : Tree) : Except Failure Tree :=
  match t, sentinel? t with
  | .map es, some s => decodeAs s es
  | _, _ => .error (if t.isWritable then .notASentinel t.shown else .integerUnwritable)

/-! ### Wrapping -/

/-- The value in the sentinel it needs: lists, truth values and texts that read
as numbers need one. -/
def wrap : Tree → Tree
  | .list ts => arraySentinel ts
  | .bool b => .map [Sentinel.boolean.mark, (textKey, .text (Tree.bool b).scalarText)]
  | .text s =>
    if Text.isNumberLike s then .map [Sentinel.string.mark, (textKey, .text s)] else .text s
  | t => t

end DefinitionTree.Wire
