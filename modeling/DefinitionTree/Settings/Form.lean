/-
DefinitionTree/Settings/Form.lean

Filling in forms.

Settings and annotations come as objects written by hand.  A form reads such an
object entry by entry and reports everything that is wrong with it, in the
order of the form and with unknown entries last.  Reading is generous: a truth
value may be written as a word or a number, an integer as a text (see
`IntegerText`) or a fraction-free number.

The rules have names, which are what a report shows: `bool_type`,
`bool_parsing`, `string_type`, and so on.
-/
import DefinitionTree.Failure
import DefinitionTree.Settings.IntegerText
import DefinitionTree.Tree.Basic

namespace DefinitionTree

/-- What was read from an object, or all that is wrong with it. -/
abbrev Form (α : Type) := Except (List Issue) α

namespace Form

variable {α β : Type}

/-! ### Putting forms together -/

/-- A single broken rule. -/
def refuse (rule : String) : Form α := .error [⟨[], rule⟩]

/-- The form with its issues one place further down. -/
def inside (place : String) : Form α → Form α
  | .ok a => .ok a
  | .error issues => .error (issues.map fun i => { i with place := place :: i.place })

/-- What two forms give together, with the issues of either. -/
def and (f : Form (α → β)) (x : Form α) : Form β :=
  match f, x with
  | .ok f, .ok a => .ok (f a)
  | .ok _, .error issues => .error issues
  | .error issues, .ok _ => .error issues
  | .error issues, .error more => .error (issues ++ more)

/-- The first form, with the issues of the second. -/
def also (x : Form α) (check : Form Unit) : Form α :=
  and (and (.ok fun a _ => a) x) check

/-- The entry with this name, or the default if it is missing. -/
def field (name : String) (default : α) (read : Tree → Form α) (es : Entries) : Form α :=
  match Entries.field? name es with
  | some t => inside name (read t)
  | none => .ok default

/-- There are no entries but these. -/
def noOthers (names : List String) (es : Entries) : Form Unit :=
  let others := es.filterMap fun e =>
    match e.1 with
    | .text s => if names.contains s then none else some s
    | _ => none
  if others.isEmpty then .ok () else .error (others.map fun s => ⟨[s], "extra_forbidden"⟩)

/-- The entries of an object. -/
def object (read : Entries → Form α) : Tree → Form α
  | .map es => read es
  | _ => refuse "model_type"

/-- A value that may be null. -/
def nullable (read : Tree → Form α) : Tree → Form (Option α)
  | .null => .ok none
  | t => some <$> read t

/-! ### Texts -/

/-- A text. -/
def text : Tree → Form String
  | .text s => .ok s
  | _ => refuse "string_type"

/-- The items of a list of texts, from an index on. -/
def textItems (index : Nat) : List Tree → Form (List String)
  | [] => .ok []
  | t :: rest =>
    and (and (.ok (· :: ·)) (inside (toString index) (text t))) (textItems (index + 1) rest)

/-- A list of texts; anything but a list breaks the given rule. -/
def texts (rule : String) : Tree → Form (List String)
  | .list ts => textItems 0 ts
  | _ => refuse rule

/-- A set of texts, written as a list. -/
def textSet (t : Tree) : Form (List String) := List.eraseDups <$> texts "frozen_set_type" t

/-! ### Truth values and integers -/

/-- The words for true and false, in any case. -/
def truthWord? (s : String) : Option Bool :=
  let word := String.ofList (s.toList.map Char.toLower)
  if ["1", "on", "t", "true", "y", "yes"].contains word then some true
  else if ["0", "off", "f", "false", "n", "no"].contains word then some false
  else none

/-- The integer fits into 64 bits. -/
def isSmall (n : Int) : Bool := -(Int.pow 2 63) ≤ n && n < Int.pow 2 63

/-- The integer that a float equals fits into 64 bits.  The least of these
integers is left out, since smaller ones may come as the same float. -/
def isSmallFloat (n : Int) : Bool := -(Int.pow 2 63) < n && n < Int.pow 2 63

/-- One and zero as truth values; `isRead` says whether the number is one that
is read as an integer at all. -/
def truthNumber (isRead : Bool) (n : Int) : Form Bool :=
  if n = 0 then .ok false
  else if n = 1 then .ok true
  else if isRead then refuse "bool_parsing"
  else refuse "bool_type"

/-- A truth value. -/
def truth : Tree → Form Bool
  | .bool b => .ok b
  | .text s =>
    match truthWord? s with
    | some b => .ok b
    | none => refuse "bool_parsing"
  | .int n => truthNumber (isSmall n) n
  | .float x =>
    match x.toInt? with
    | some n => truthNumber (isSmallFloat n) n
    | none => refuse "bool_type"
  | _ => refuse "bool_type"

/-- An integer. -/
def integer : Tree → Form Int
  | .int n => .ok n
  | .bool b => .ok (if b then 1 else 0)
  | .text s =>
    match IntegerText.read s with
    | .ok n => .ok n
    | .error .unreadable => refuse "int_parsing"
    | .error .tooLong => refuse "int_parsing_size"
  | .float x =>
    match x.toInt? with
    | some n => if isSmallFloat n then .ok n else refuse "int_parsing_size"
    | none =>
      match x with
      | .finite _ _ _ => refuse "int_from_float"
      | _ => refuse "finite_number"
  | _ => refuse "int_type"

end Form

end DefinitionTree
