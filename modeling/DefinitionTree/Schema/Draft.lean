/-
DefinitionTree/Schema/Draft.lean

Schemas under construction.

A draft collects declarations: first object types, then fields, in any order.
Types that are not declared yet may be referred to; only `Draft.build` asks
that every reference leads to a declared type.  A schema that was built does
not change when the draft does.
-/
import DefinitionTree.Schema.AnnotationForm

namespace DefinitionTree

/-- The object types declared so far, with the fields added so far. -/
structure Draft where
  types : List ObjectType := []
deriving Repr, Inhabited

namespace Draft

/-- The declared type with this name. -/
def type? (d : Draft) (name : String) : Option ObjectType :=
  d.types.find? fun t => t.name = name

/-! ### Declaring -/

/-- Declares an object type without fields. -/
def declare (d : Draft) (name : String) (isUnion ignoresTag : Bool) : Except Failure Draft :=
  if (d.type? name).isSome || (Primitive.ofName? name).isSome then
    .error (.typeDeclaredTwice name)
  else .ok ⟨d.types ++ [⟨name, [], isUnion, ignoresTag⟩]⟩

/-- Fails unless a field with this name can be added to the type. -/
def checkField (d : Draft) (owner field : String) : Except Failure Unit :=
  match d.type? owner with
  | none => .error (.ownerUndeclared owner field)
  | some t =>
    if (t.field? field).isSome then .error (.fieldDeclaredTwice owner field) else .ok ()

/-- The draft with a field more in one of its types. -/
def withField (d : Draft) (owner : String) (f : Field) : Draft :=
  ⟨d.types.map fun t => if t.name = owner then { t with fields := t.fields ++ [f] } else t⟩

/-- Adds a field, whose type is given by its spelling and whose annotations are
given by an object, to a declared type. -/
def addField (d : Draft) (owner name spelling : String) (annotations : Entries) :
    Except Failure Draft := do
  if Annotations.clashes annotations then throw .annotationClash
  d.checkField owner name
  let annotations ← Annotations.ofEntries annotations
  return d.withField owner ⟨name, .ofText spelling, spelling, annotations⟩

/-- Adds several fields.  The ones in front of a field that cannot be added
stay. -/
def addFields (d : Draft) (owner : String) :
    List (String × String × Entries) → Draft × Except Failure Unit
  | [] => (d, .ok ())
  | (name, spelling, annotations) :: rest =>
    match d.addField owner name spelling annotations with
    | .ok d => d.addFields owner rest
    | .error e => (d, .error e)

/-! ### Building -/

/-- Fails unless the reference, inside all its lists, is builtin or declared. -/
def checkRef (d : Draft) (owner : String) (r : TypeRef) : Except Failure Unit :=
  match r.base with
  | .named name =>
    if (d.type? name).isSome then .ok () else .error (.danglingReference owner name)
  | _ => .ok ()

/-- The schema with this root.  The root has to be declared, and so have all
types that fields refer to. -/
def build (d : Draft) (root : String) : Except Failure Graph :=
  match d.type? root with
  | none => .error (.rootUndeclared root)
  | some t => do
    d.types.forM fun t => t.fields.forM fun f => d.checkRef t.name f.type
    return ⟨t, d.types.filter fun t => t.name ≠ root⟩

end Draft

end DefinitionTree
