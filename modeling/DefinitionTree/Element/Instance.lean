/-
DefinitionTree/Element/Instance.lean

Elements, and where they are looked up.

An element is an instance (a named value of some type), an object type, or
something else that only has to be passed along.  Elements are found by the
full name of their id: first among those at hand, where the first with the
name counts, then in a store, where the last one counts.
-/
import DefinitionTree.Failure
import DefinitionTree.Schema.Graph

namespace DefinitionTree

/-! ### Elements -/

/-- A configuration instance: a named value of some type. -/
structure Instance where
  name : String
  typeName : String
  value : Entries := []
  path : Option (List String) := none
  annotations : Entries := []
  adapter : String := ElementId.netsuite
deriving Repr, Inhabited

/-- The id of an instance. -/
def Instance.id (i : Instance) : ElementId := .ofInstance i.adapter i.typeName i.name

/-- An element of a configuration. -/
inductive Element where
  | object (text : String)
  | type (t : ObjectType)
  | instance (i : Instance)
deriving Repr, Inhabited

namespace Element

/-- The id of an element that has one. -/
def id? : Element → Option ElementId
  | .object _ => none
  | .type t => some t.id
  | .instance i => some i.id

/-- The element's id has this full name. -/
def hasName (name : String) (e : Element) : Bool := e.id?.any fun i => i.fullName == name

/-- The instance that an element is. -/
def instance? : Element → Option Instance
  | .instance i => some i
  | _ => none

/-- The instance that an element has to be. -/
def asInstance : Element → Except Failure Instance
  | .instance i => .ok i
  | _ => .error .notAnInstance

/-- The element is an instance of this type. -/
def isInstanceOf (typeName : String) : Element → Bool
  | .instance i => i.typeName = typeName
  | _ => false

end Element

/-! ### Looking up -/

/-- A store of elements, in the order in which they were put in. -/
structure Store where
  elements : List Element := []
deriving Repr, Inhabited

namespace Store

/-- The store of these elements; each of them has to have an id. -/
def ofElements (es : List Element) : Except Failure Store :=
  if es.all fun e => e.id?.isSome then .ok ⟨es⟩ else .error .elementWithoutId

/-- The element with this full name: the last one put in. -/
def get? (s : Store) (name : String) : Option Element :=
  s.elements.reverse.find? (Element.hasName name)

/-- The full names in a store. -/
def names (s : Store) : List String :=
  (s.elements.filterMap fun e => e.id?.map (·.fullName)).eraseDups

/-- The number of elements that can be found. -/
def size (s : Store) : Nat := s.names.length

end Store

/-- Where elements are looked up: those at hand, then a store. -/
structure Lookup where
  working : List Element := []
  store : Option Store := none
deriving Repr, Inhabited

/-- The element with this full name. -/
def Lookup.get? (l : Lookup) (name : String) : Option Element :=
  match l.working.find? (Element.hasName name) with
  | some e => some e
  | none => l.store.bind fun s => s.get? name

/-! ### Changes -/

/-- A pending change, with what it is about before and after. -/
structure Change (α : Type) where
  action : String
  before : Option α
  after : Option α
deriving Repr, Inhabited

namespace Change

variable {α β : Type}

/-- The change takes away what it is about. -/
def isRemoval (c : Change α) : Bool := c.action = "remove"

/-- What a change is about: the state after the change, or before a removal. -/
def data (c : Change α) : Except Failure α :=
  match if c.isRemoval then c.before else c.after with
  | some a => .ok a
  | none => .error (.changeWithoutInstance c.action)

/-- The change with `f` applied to the state before it and to the state after it. -/
def map (f : α → β) (c : Change α) : Change β := ⟨c.action, c.before.map f, c.after.map f⟩

end Change

end DefinitionTree
