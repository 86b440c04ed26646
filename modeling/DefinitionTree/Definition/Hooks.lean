/-
DefinitionTree/Definition/Hooks.lean

The hooks of a host that keeps a list of elements.

After a fetch every workbook and dataset among the elements gets its canonical
value, and the types of both kinds are put in.  A definition that cannot be
read is kept as it is, with a warning.  Before a deployment the instances that
were changed get the values to deploy; an instance that still holds its
definition as a text was never fetched and is left alone.

A hook may fail on the way.  What it has changed by then stays changed, so a
hook gives back the elements beside its journal.
-/
import DefinitionTree.Definition.Deploy

namespace DefinitionTree

/-- What the hooks work with. -/
structure Hooks where
  settings : Settings := {}
  /-- where elements are looked up that are not in the list -/
  store : Option Store := none
deriving Repr, Inhabited

/-- The failure is that of a definition that cannot be read. -/
def Failure.isUnreadable : Failure → Bool
  | .malformed => true
  | .rootHoldsText _ => true
  | _ => false

namespace Hooks

/-! ### After a fetch -/

/-- The element is a type of a kind, going by its name. -/
def isTypeOf (kind : Kind) : Element → Bool
  | .type t => kind.name.toList.isPrefixOf t.name.toList
  | _ => false

/-- The elements that are neither instances nor types of a kind. -/
def others (kind : Kind) (es : List Element) : List Element :=
  es.filter fun e => !isTypeOf kind e && !e.isInstanceOf kind.name

/-- The instances of a kind. -/
def instances (kind : Kind) (es : List Element) : List Instance :=
  (es.filter (Element.isInstanceOf kind.name)).filterMap Element.instance?

/-- An instance after a fetch. -/
def fetched (h : Hooks) (kind : Kind) (lookup : Lookup) (i : Instance) : Journal Instance := do
  try
    return { i with value := ← fetchInstance h.settings (some lookup) kind i }
  catch e =>
    -- any other failure ends the fetch of this kind
    if e.isUnreadable then
      Journal.note .warning .definitions
        ("keeping " ++ i.id.fullName ++ " unparsed: " ++ e.message)
      return i
    else throw e

/-- The elements after fetching one kind: the others, the types of the kind, and
its instances. -/
def fetchKind (h : Hooks) (es : List Element) (kind : Kind) : Journal (List Element) := do
  let rest := others kind es
  let parsed ← (instances kind es).mapM (h.fetched kind ⟨rest, h.store⟩)
  Journal.note .info .definitions
    ("parsed " ++ toString parsed.length ++ " " ++ kind.name ++ " definitions")
  return rest ++ kind.schema.types.map .type ++ parsed.map .instance

/-- Fetches one kind after the other. -/
def fetchKinds (h : Hooks) (es : List Element) : List Kind → List Element × Journal Unit
  | [] => (es, pure ())
  | kind :: kinds =>
    let j := h.fetchKind es kind
    match j.outcome with
    | .ok es =>
      let (es, more) := h.fetchKinds es kinds
      (es, ⟨j.notes ++ more.notes, more.outcome⟩)
    | .error e => (es, ⟨j.notes, .error e⟩)

/-- What is done after a fetch. -/
def onFetch (h : Hooks) (es : List Element) : List Element × Journal Unit :=
  h.fetchKinds es Kind.all

/-! ### Before a deployment -/

/-- What a pending change is about: an element of the list, or an instance that
is not in it. -/
inductive Subject where
  | listed (index : Nat)
  | apart (i : Instance)
deriving Repr, Inhabited

namespace Subject

/-- The instance that a subject is, if it is one. -/
def instance? (es : List Element) : Subject → Option Instance
  | .listed n => es[n]?.bind Element.instance?
  | .apart i => some i

/-- The elements with another value for a subject. -/
def update (es : List Element) (value : Entries) : Subject → List Element
  | .listed n => es.modify n fun e =>
    match e with
    | .instance i => .instance { i with value }
    | e => e
  | .apart _ => es

end Subject

/-- The value to deploy for an instance, if its value has to be replaced. -/
def prepared (h : Hooks) (i : Instance) : Journal (Option Entries) :=
  match Kind.ofName? i.typeName, definitionText? i.value with
  | none, _ => return none
  | some _, some _ => do
    Journal.note .warning .definitions
      (i.id.fullName ++ " was never parsed, deploying its definition unchanged")
    return none
  | some kind, none => some <$> Journal.of (deployInstance h.settings kind i)

/-- The value to deploy for what a change is about. -/
def preparedSubject (h : Hooks) (es : List Element) (s : Subject) : Journal (Option Entries) :=
  match s.instance? es with
  | some i => h.prepared i
  | none => return none

/-- Prepares what changes are about, and counts what it has prepared. -/
def prepareAll (h : Hooks) (es : List Element) (count : Nat) :
    List (Change Subject) → List Element × Journal Nat
  | [] => (es, pure count)
  | c :: cs =>
    match c.data with
    | .error e => (es, throw e)
    | .ok s =>
      let j := h.preparedSubject es s
      match j.outcome with
      | .error e => (es, ⟨j.notes, .error e⟩)
      | .ok none =>
        let (es, more) := h.prepareAll es count cs
        (es, ⟨j.notes ++ more.notes, more.outcome⟩)
      | .ok (some value) =>
        let (es, more) := h.prepareAll (s.update es value) (count + 1) cs
        (es, ⟨j.notes ++ more.notes, more.outcome⟩)

/-- What is done before a deployment. -/
def preDeploy (h : Hooks) (es : List Element) (cs : List (Change Subject)) :
    List Element × Journal Unit :=
  let (es, j) := h.prepareAll es 0 cs
  (es, do
    let count ← j
    Journal.note .info .definitions
      ("prepared " ++ toString count ++ " analytic definitions for deploy"))

end Hooks

end DefinitionTree
