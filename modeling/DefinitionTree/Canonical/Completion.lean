/-
DefinitionTree/Canonical/Completion.lean

Putting back what a definition must not lack.

Before a canonical tree is written, every object gets the declared fields it
lacks, in declared order behind its own, and a union with a single variant gets
that variant's name as a mark.  Values that are there are never touched, and
sentinels are left alone.  What was put in is completed in turn, because a
default may itself be an object that lacks fields.

Schemas may be cyclic, so a default could call for itself again and again.
Fillings inside fillings are therefore counted.  What fills a field depends on
the field and the type of its place alone, so along a finite completion no field
is filled inside its own filling.  Only where the root type is taken up again,
at one single depth, may two more fillings come in between: the one that stands
at this depth, and the one inside it, which goes by the type that was declared.
A nesting that is deeper than this never ends, and is reported.

Main definitions:

* `Graph.additions`: what a mapping lacks;
* `Graph.fill`: completion with a bound on nested fillings;
* `Graph.complete`: the completed form of a definition.
-/
import DefinitionTree.Canonical.Place
import DefinitionTree.Canonical.Placeholder
import DefinitionTree.Failure

namespace DefinitionTree

/-! ### What a mapping lacks -/

/-- What is to be added to a mapping. -/
inductive Additions where
  /-- nothing: the mapping is no declared object, or is a sentinel -/
  | nothing
  /-- the name of its only variant, as a mark -/
  | variantMark (variant : Key)
  /-- these fields of the object type with this name -/
  | fields (owner : String) (missing : List Field)
deriving Repr, Inhabited

/-- The fields of an object type that the entries lack and that are put back. -/
def ObjectType.missing (t : ObjectType) (es : Entries) : List Field :=
  t.fields.filter fun f => !Entries.has (.text f.name) es && !f.annotations.isOmitted

/-- What a mapping at an object type lacks. -/
def ObjectType.additions (t : ObjectType) (es : Entries) : Additions :=
  if Entries.has Wire.typeKey es then .nothing
  else
    match t.keepsTag, es with
    | true, [(k, _)] => .variantMark k
    | _, es => .fields t.name (t.missing es)

/-- What a mapping at a place lacks. -/
def Graph.additions (g : Graph) (type : Option TypeRef) (place : ElementId) (es : Entries) :
    Additions :=
  match g.objectAt? (g.typeAt type place) with
  | none => .nothing
  | some t => t.additions es

namespace Graph

/-! ### Completing with a given way to fill a field -/

/-- How the value of a missing field is made: for the field of a type, with the
declared type and the place of the value. -/
abbrev Filler := String → Field → Option TypeRef → ElementId → Except Failure Tree

/-- An entry, unless its value is null. -/
def kept (k : Key) (t : Tree) (es : Entries) : Entries :=
  match t with
  | .null => es
  | t => (k, t) :: es

/-- The entries of the missing fields of a mapping. -/
def fillFields (g : Graph) (filler : Filler) (type : Option TypeRef) (place : ElementId)
    (owner : String) : List Field → Except Failure Entries
  | [] => .ok []
  | f :: rest => do
    let k := .text f.name
    let t ← filler owner f (g.fieldType type k) (place.entry k)
    let es ← g.fillFields filler type place owner rest
    return kept k t es

mutual

/-- Completes a value and everything inside it. -/
def fillWith (g : Graph) (filler : Filler) (type : Option TypeRef) (place : ElementId) :
    Tree → Except Failure Tree
  | .list ts => .list <$> g.fillItems filler (itemType type) place 0 ts
  | .map es =>
    match g.additions type place es with
    | .nothing => .map <$> g.fillEntries filler type place es
    | .variantMark k =>
      -- a variant that is called like the mark gives way to it
      if k.same Wire.tagKey then .ok (.map [(k, Tree.ofKey k)])
      else do
        let old ← g.fillEntries filler type place es
        return .map (old ++ kept Wire.tagKey (Tree.ofKey k) [])
    | .fields owner missing => do
      -- what is there comes first, and what was missing behind it
      let old ← g.fillEntries filler type place es
      let new ← g.fillFields filler type place owner missing
      return .map (old ++ new)
  | t => .ok t

/-- Completes the items of a list, from an index on; null items are left out. -/
def fillItems (g : Graph) (filler : Filler) (type : Option TypeRef) (place : ElementId)
    (index : Nat) : List Tree → Except Failure (List Tree)
  | [] => .ok []
  | t :: rest => do
    let u ← g.fillWith filler type (place.item index) t
    let us ← g.fillItems filler type place (index + 1) rest
    return match u with
      | .null => us
      | u => u :: us

/-- Completes the values of a mapping; null values are left out. -/
def fillEntries (g : Graph) (filler : Filler) (type : Option TypeRef) (place : ElementId) :
    Entries → Except Failure Entries
  | [] => .ok []
  | (k, t) :: rest => do
    let u ← g.fillWith filler (g.fieldType type k) (place.entry k) t
    let us ← g.fillEntries filler type place rest
    return kept k u us

end

/-! ### Fillings inside fillings -/

/-- Fills a missing field with its placeholder, completed by the given way to
fill the fields inside it. -/
def filler (g : Graph) (inner : Filler) : Filler := fun _ f type place =>
  g.fillWith inner type place (g.fieldPlaceholder f).value

/-- The way to fill a missing field with at most this many fillings inside
each other. -/
def nestedFiller (g : Graph) : Nat → Filler
  | 0 => fun owner f _ _ => .error (.endlessDefault owner f.name)
  | depth + 1 => g.filler (g.nestedFiller depth)

/-- Completes a value with at most this many fillings inside each other. -/
def fill (g : Graph) (depth : Nat) (type : Option TypeRef) (place : ElementId) (t : Tree) :
    Except Failure Tree :=
  g.fillWith (g.nestedFiller depth) type place t

/-- How deep fillings may nest: each field once, and twice more for the place
where the root type is taken up again. -/
def nesting (g : Graph) : Nat := g.fieldNames.length + 2

/-- The completed form of a definition at a place.  That of an absent one is the
empty mapping. -/
def complete (g : Graph) (place : ElementId) (t : Tree) : Except Failure Tree := do
  match ← g.fill g.nesting (some g.rootRef) place t with
  | .null => return .map []
  | u => return u

end Graph

end DefinitionTree
