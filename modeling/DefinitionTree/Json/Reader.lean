/-
DefinitionTree/Json/Reader.lean

Reading JSON text into a tree.

The reader goes through the tokens once, with the lists and mappings that are
still open on a stack, the innermost first.  A key that occurs again keeps its
first place and gets its last value.  References stay in their stored form.
-/
import DefinitionTree.Json.Token

namespace DefinitionTree.Json

/-! ### The state of reading -/

/-- A list or a mapping that is still open. -/
inductive Frame where
  /-- a list: its items so far, in reverse -/
  | items (done : List Tree)
  /-- a mapping: its entries so far, and the key whose value comes next -/
  | entries (done : Entries) (key : String)

/-- What may come next. -/
inductive Expects where
  /-- a value -/
  | value
  /-- a value, or the end of a list that is still empty -/
  | item
  /-- a key, or the end of a mapping that is still empty -/
  | firstKey
  /-- a key -/
  | key
  /-- the colon after a key -/
  | colon
  /-- a comma or an end -/
  | next

/-- A value is complete: it goes into the innermost open container. -/
def Frame.add (t : Tree) : Frame → Frame
  | .items done => .items (t :: done)
  | .entries done k => .entries (Entries.set (.text k) t done) k

/-! ### The reader -/

/-- Reads the tokens that are left.  `done` is the outermost value once it is
complete. -/
def read (done : Option Tree) : List Frame → Expects → List Token → Except Failure Tree
  | stack, _, [] =>
    match stack, done with
    | [], some t => .ok t
    | _, _ => .error .invalidJson
  | _, _, .bad failure :: _ => .error failure
  | stack, expects, token :: rest =>
    -- a value that is complete goes into the container around it
    let complete (t : Tree) (outer : List Frame) : Except Failure Tree :=
      match outer with
      | [] => read (some t) [] .next rest
      | f :: outer => read done (f.add t :: outer) .next rest
    match expects, token, stack with
    | .value, .scalar t, stack => complete t stack
    | .item, .scalar t, stack => complete t stack
    | .value, .openList, stack => read done (.items [] :: stack) .item rest
    | .item, .openList, stack => read done (.items [] :: stack) .item rest
    | .value, .openMap, stack => read done (.entries [] "" :: stack) .firstKey rest
    | .item, .openMap, stack => read done (.entries [] "" :: stack) .firstKey rest
    | .item, .closeList, .items xs :: outer => complete (.list xs.reverse) outer
    | .next, .closeList, .items xs :: outer => complete (.list xs.reverse) outer
    | .firstKey, .closeMap, .entries es _ :: outer => complete (.map es) outer
    | .next, .closeMap, .entries es _ :: outer => complete (.map es) outer
    | .firstKey, .scalar (.text k), .entries es _ :: outer =>
      read done (.entries es k :: outer) .colon rest
    | .key, .scalar (.text k), .entries es _ :: outer =>
      read done (.entries es k :: outer) .colon rest
    | .colon, .colon, stack => read done stack .value rest
    | .next, .comma, .items xs :: outer => read done (.items xs :: outer) .value rest
    | .next, .comma, .entries es k :: outer => read done (.entries es k :: outer) .key rest
    | _, _, _ => .error .invalidJson

/-- The tree that a JSON text holds. -/
def parse (s : String) : Except Failure Tree := read none [] .value (tokens s.toList)

end DefinitionTree.Json
