/-
DefinitionTree/Schema/TypeRef.lean

References to types.

A field names its type by text: one of the five builtin types, `List<…>` around
another reference, or the name of an object type.  `TypeRef.ofText` reads that
text once and for all, so that nothing after it looks at spellings.  Every text
is a reference; whether the object type it names exists is a question to a
schema.
-/
import DefinitionTree.Text.Basic

namespace DefinitionTree

/-! ### Builtin types -/

/-- The builtin types. -/
inductive Primitive where
  | string
  | number
  | boolean
  | serviceId
  | unknown
deriving DecidableEq, Repr

namespace Primitive

/-- The name of a builtin type. -/
def name : Primitive → String
  | .string => "string"
  | .number => "number"
  | .boolean => "boolean"
  | .serviceId => "serviceid"
  | .unknown => "unknown"

/-- The builtin types in order. -/
def all : List Primitive := [.string, .number, .boolean, .serviceId, .unknown]

/-- The builtin type with this name. -/
def ofName? (s : String) : Option Primitive := all.find? fun p => p.name = s

end Primitive

/-! ### References -/

/-- A reference to a type. -/
inductive TypeRef where
  | primitive (p : Primitive)
  | list (item : TypeRef)
  | named (name : String)
deriving DecidableEq, Repr, Inhabited

namespace TypeRef

/-- What a list reference starts with. -/
def listMark : List Char := "List<".toList

/-- The item reference inside a list reference: at least one character, on one
line.  A line break after the closing mark is tolerated. -/
def listItem? (cs : List Char) : Option (List Char) :=
  if listMark.isPrefixOf cs then
    let body := Text.dropLineEnd (cs.drop listMark.length)
    let item := body.dropLast
    if body.getLast? = some '>' && !item.isEmpty && !item.contains '\n' then some item else none
  else none

theorem length_of_listItem? {cs item : List Char} (h : listItem? cs = some item) :
    item.length < cs.length := by
  unfold listItem? at h
  split at h
  · rename_i hp
    simp only at h
    split at h
    · simp only [Option.some.injEq] at h
      have hl : listMark.length ≤ cs.length := (List.isPrefixOf_iff_prefix.mp hp).length_le
      have hm : listMark.length = 5 := by decide
      have hd : (Text.dropLineEnd (cs.drop listMark.length)).length ≤ cs.length - 5 := by
        have := Text.length_dropLineEnd_le (cs.drop listMark.length)
        rw [List.length_drop, hm] at this
        exact this
      subst h
      rw [List.length_dropLast]
      omega
    · simp at h
  · simp at h

/-- The reference that a text spells. -/
def ofChars (cs : List Char) : TypeRef :=
  match Primitive.ofName? (String.ofList cs) with
  | some p => .primitive p
  | none =>
    match h : listItem? cs with
    | some item =>
      have : item.length < cs.length := length_of_listItem? h
      .list (ofChars item)
    | none => .named (String.ofList cs)
termination_by cs.length

/-- The reference that a text spells. -/
def ofText (s : String) : TypeRef := ofChars s.toList

/-- The spelling of a reference. -/
def text : TypeRef → String
  | .primitive p => p.name
  | .list item => "List<" ++ item.text ++ ">"
  | .named name => name

/-- The reference inside all lists. -/
def base : TypeRef → TypeRef
  | .list item => item.base
  | r => r

/-- The reference is the builtin string type. -/
def isString (r : TypeRef) : Bool := r = .primitive .string

end TypeRef

end DefinitionTree
