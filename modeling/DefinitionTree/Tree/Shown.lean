/-
DefinitionTree/Tree/Shown.lean

The texts of trees.

There are two.  `Tree.shown` is how messages show any tree: texts quoted,
lists in brackets, mappings in braces, references with all their parts.
`Tree.scalarText` is how markup writes a scalar: a text is itself, truth
values are `true` and `false`, and null is the empty text; whatever is no
scalar appears as messages show it.

An integer with too many digits cannot be written, and neither can anything
that shows one.  `Tree.toText` is the text of a value where there is one, and
`Key.check` asks the same of a key.
-/
import DefinitionTree.Failure
import DefinitionTree.Number.Notation
import DefinitionTree.Text.Quoted
import DefinitionTree.Tree.Basic

namespace DefinitionTree

/-! ### As messages show it -/

/-- Texts with a comma and a blank between two. -/
def commaSeparated (ss : List String) : String := ", ".intercalate ss

/-- An element id with its parts named. -/
def ElementId.shown (i : ElementId) : String :=
  let parts := match i.parts with
    | [p] => "(" ++ Text.quoted p ++ ",)"
    | ps => "(" ++ commaSeparated (ps.map Text.quoted) ++ ")"
  "ElemID(adapter=" ++ Text.quoted i.adapter ++ ", type_name=" ++ Text.quoted i.typeName
    ++ ", id_type=" ++ Text.quoted i.idType ++ ", name_parts=" ++ parts ++ ")"

/-- A reference with its id and the text of what it resolved to. -/
def ElementId.shownReference (i : ElementId) (target : String) : String :=
  "ReferenceExpression(elem_id=" ++ i.shown ++ ", value=" ++ target ++ ")"

/-- A key as messages show it. -/
def Key.shown : Key → String
  | .null => "None"
  | .bool b => if b then "True" else "False"
  | .int n => Numeral.text n
  | .float x => x.text
  | .text s => Text.quoted s
  | .ref id => id.shownReference "None"

/-- A key as part of an element id: a text is itself.  An integer that is too long has a
spelling here, too, so whoever makes a key of a tag has it checked (`Key.check`); the keys
that are read from texts are texts. -/
def Key.plain : Key → String
  | .text s => s
  | k => k.shown

/-- The key has a text: it is no integer that is too long. -/
def Key.isWritable : Key → Bool
  | .int n => Numeral.isWritable n
  | _ => true

/-- A key without a text cannot be a part of an element id. -/
def Key.check (k : Key) : Except Failure Unit :=
  if k.isWritable then .ok () else .error .integerUnwritable

theorem Key.check_eq_ok {k : Key} (h : k.isWritable = true) : k.check = .ok () := by
  rw [check, h]
  rfl

theorem Key.check_eq_error {k : Key} (h : k.isWritable = false) :
    k.check = .error .integerUnwritable := by
  rw [check, h]
  rfl

namespace Tree

mutual

/-- A tree as messages show it. -/
def shown : Tree → String
  | .null => "None"
  | .bool b => if b then "True" else "False"
  | .int n => Numeral.text n
  | .float x => x.text
  | .text s => Text.quoted s
  | .ref id target => id.shownReference target.shown
  | .list items => "[" ++ commaSeparated (shownItems items) ++ "]"
  | .map entries => "\x7b" ++ commaSeparated (shownEntries entries) ++ "\x7d"

/-- The items of a list as messages show them. -/
def shownItems : List Tree → List String
  | [] => []
  | t :: rest => t.shown :: shownItems rest

/-- The entries of a mapping as messages show them. -/
def shownEntries : Entries → List String
  | [] => []
  | (k, t) :: rest => (k.shown ++ ": " ++ t.shown) :: shownEntries rest

end

/-- A tree where only its plain text is asked for: a text is itself. -/
def plain : Tree → String
  | .text s => s
  | t => t.shown

/-! ### What can be written -/

mutual

/-- No integer that the tree shows is too long. -/
def isWritable : Tree → Bool
  | .int n => Numeral.isWritable n
  | .ref _ target => target.isWritable
  | .list items => areWritable items
  | .map entries => haveWritable entries
  | _ => true

/-- No integer that an item of the list shows is too long. -/
def areWritable : List Tree → Bool
  | [] => true
  | t :: rest => t.isWritable && areWritable rest

/-- No integer that a key or a value of the entries shows is too long. -/
def haveWritable : Entries → Bool
  | [] => true
  | (k, t) :: rest => k.isWritable && t.isWritable && haveWritable rest

end

@[simp] theorem isWritable_list_iff {ts : List Tree} :
    (list ts).isWritable = true ↔ ∀ t ∈ ts, t.isWritable = true := by
  show areWritable ts = true ↔ _
  induction ts with
  | nil => simp [areWritable]
  | cons t ts ih => rw [areWritable, Bool.and_eq_true, ih, List.forall_mem_cons]

@[simp] theorem isWritable_map_iff {es : Entries} : (map es).isWritable = true ↔
    ∀ e ∈ es, e.1.isWritable = true ∧ e.2.isWritable = true := by
  show haveWritable es = true ↔ _
  induction es with
  | nil => simp [haveWritable]
  | cons e es ih =>
    obtain ⟨k, t⟩ := e
    rw [haveWritable, Bool.and_eq_true, Bool.and_eq_true, ih, List.forall_mem_cons]

/-! ### As markup writes it -/

/-- The characters of a scalar in markup, however many digits it has. -/
def scalarText : Tree → String
  | .text s => s
  | .bool b => if b then "true" else "false"
  | .null => ""
  | t => t.shown

/-- The text of a value in markup.  It fails on an integer that is too long. -/
def toText (t : Tree) : Except Failure String :=
  if t.isWritable then .ok t.scalarText else .error .integerUnwritable

theorem toText_eq_ok {t : Tree} (h : t.isWritable = true) : t.toText = .ok t.scalarText := by
  rw [toText, h]
  rfl

theorem toText_eq_error {t : Tree} (h : t.isWritable = false) :
    t.toText = .error .integerUnwritable := by
  rw [toText, h]
  rfl

theorem toText_eq_ok_iff {t : Tree} {s : String} :
    t.toText = .ok s ↔ t.isWritable = true ∧ t.scalarText = s := by
  rw [toText]
  split
  · rename_i writable
    simp [writable]
  · rename_i long
    simp [long]

@[simp] theorem toText_text (s : String) : (text s).toText = .ok s := rfl

end Tree

end DefinitionTree
