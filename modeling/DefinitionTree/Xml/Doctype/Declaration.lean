/-
DefinitionTree/Xml/Doctype/Declaration.lean

The declarations of a document type.

Elements, attributes, notations and entities are declared.  The first three are
checked for their form, and attributes leave their rules behind.  Entities may
not be declared: an entity counts as declared once its value has been read,
whatever follows.  Only the five entities that markup knows already may be
declared again, and entities whose declarations are not read any more.
-/
import DefinitionTree.Xml.Doctype.Basic
import DefinitionTree.Xml.Doctype.Token

namespace DefinitionTree.Xml.Doctype

/-! ### Elements -/

/-- The rest of a content model in which text may stand: the names behind it
and the end. -/
def isMixed : List Token → Bool
  | .bar :: .name _ none :: [.closeParen (some '*'), .close] => true
  | .bar :: .name _ none :: rest => isMixed rest
  | _ => false

/-- The rest of a content model.  Every open group has a connector once it has
two items, and `item` says whether an item comes next. -/
def isModel : List (Option Token) → Bool → List Token → Bool
  | gs, true, .openParen :: rest => isModel (none :: gs) true rest
  | gs, true, .name _ _ :: rest => isModel gs false rest
  | _ :: gs, false, .closeParen _ :: rest =>
    if gs.isEmpty then rest = [.close] else isModel gs false rest
  | g :: gs, false, t :: rest =>
    (t = .comma || t = .bar) && (g = none || g = some t) && isModel (some t :: gs) true rest
  | _, _, _ => false

/-- The tokens behind the name in the declaration of an element. -/
def isContent : List Token → Bool
  | [.name s none, .close] => s = "EMPTY" || s = "ANY"
  | .openParen :: .keyword s :: rest =>
    s = "PCDATA" && (rest = [.closeParen none, .close] || rest = [.closeParen (some '*'), .close]
      || isMixed rest)
  | .openParen :: rest => isModel [none] true rest
  | _ => false

/-- The tokens of the declaration of an element. -/
def isElement : List Token → Bool
  | .name _ none :: rest => isContent rest
  | _ => false

/-! ### Notations -/

/-- The characters of a public identifier. -/
def isPublicChar (c : Char) : Bool :=
  c.isAlphanum || c == ' ' || c == '\n' || "-'()+,./:=?;!*#@$_%".toList.contains c

/-- The tokens of the declaration of a notation. -/
def isNotation : List Token → Bool
  | [.name _ none, .name kind none, .literal _ cs, .close] =>
    kind = "SYSTEM" || kind = "PUBLIC" && cs.all isPublicChar
  | [.name _ none, .name kind none, .literal _ cs, .literal _ _, .close] =>
    kind = "PUBLIC" && cs.all isPublicChar
  | _ => false

/-! ### Attributes -/

/-- The types of attributes that hold words. -/
def wordTypes : List String :=
  ["ID", "IDREF", "IDREFS", "ENTITY", "ENTITIES", "NMTOKEN", "NMTOKENS"]

/-- A position in the declaration of attributes. -/
inductive RulePlace where
  /-- where an attribute or the end comes next -/
  | name
  /-- behind the name of an attribute -/
  | type (name : String)
  /-- where a group of notations comes next -/
  | notations (name : String)
  /-- in a group where a name comes next, or else any word -/
  | choice (name : String) (onlyNames : Bool)
  /-- in a group behind a name or a word -/
  | chosen (name : String) (onlyNames : Bool)
  /-- behind the type -/
  | default (name : String) (ofWords : Bool)
  /-- where the one value comes next that the attribute may have -/
  | fixed (name : String) (ofWords : Bool)
deriving DecidableEq, Repr

/-- Reads one more character of a literal as the value of an attribute. -/
def stepLiteral (d : Doctype) (r : TagReading) (c : Char) : Except Failure TagReading :=
  match r with
  | .more p => p.step d.isHidden c
  | _ => .error .malformed

/-- The value that a literal stands for as the value of an attribute.  It is of
no interest once declarations are not read any more. -/
def literalValue (d : Doctype) (mark : Char) (cs : List Char) : Except Failure (List Char) := do
  if d.isSkipping then return []
  match ← cs.foldlM d.stepLiteral (.more (.value ⟨⟨"", []⟩, "", mark, []⟩)) with
  | .more (.value v) => return v.chars.reverse
  | _ => .error .malformed

/-- The rules that the tokens of a declaration of attributes hold. -/
def attributeRules (d : Doctype) (element : String) :
    RulePlace → List Token → Except Failure (List AttributeRule)
  | .name, [.close] => .ok []
  | .name, .name s none :: rest => attributeRules d element (.type s) rest
  | .type s, .name kind none :: rest =>
    if kind = "CDATA" then attributeRules d element (.default s false) rest
    else if wordTypes.contains kind then attributeRules d element (.default s true) rest
    else if kind = "NOTATION" then attributeRules d element (.notations s) rest
    else .error .malformed
  | .type s, .openParen :: rest => attributeRules d element (.choice s false) rest
  | .notations s, .openParen :: rest => attributeRules d element (.choice s true) rest
  | .choice s onlyNames, .name _ none :: rest => attributeRules d element (.chosen s onlyNames) rest
  | .choice s false, .word _ :: rest => attributeRules d element (.chosen s false) rest
  | .chosen s onlyNames, .bar :: rest => attributeRules d element (.choice s onlyNames) rest
  | .chosen s _, .closeParen none :: rest => attributeRules d element (.default s true) rest
  | .default s ofWords, .keyword kind :: rest =>
    if kind = "FIXED" then attributeRules d element (.fixed s ofWords) rest
    else if kind = "IMPLIED" || kind = "REQUIRED" then do
      return ⟨element, s, ofWords, none⟩ :: (← attributeRules d element .name rest)
    else .error .malformed
  | .default s ofWords, .literal mark cs :: rest => do
    let value ← d.literalValue mark cs
    return ⟨element, s, ofWords, some (if ofWords then words value else value)⟩
      :: (← attributeRules d element .name rest)
  | .fixed s ofWords, .literal mark cs :: rest => do
    let value ← d.literalValue mark cs
    return ⟨element, s, ofWords, some (if ofWords then words value else value)⟩
      :: (← attributeRules d element .name rest)
  | _, _ => .error .malformed

/-- Adds the rules that a declaration of attributes holds, unless declarations
are not read any more. -/
def declareAttributes (d : Doctype) : List Token → Except Failure Doctype
  | .name element none :: rest => do
    let more ← d.attributeRules element .name rest
    return if d.isSkipping then d else more.foldl addRule d
  | _ => .error .malformed

/-! ### Entities -/

/-- The text is the value of an entity, and `reference` says where in a
reference it starts. -/
def isEntityValue : Option Reference → List Char → Bool
  | none, [] => true
  | some _, [] => false
  | none, c :: rest => c != '%' && isEntityValue (if c = '&' then some .start else none) rest
  | some r, c :: rest =>
    match r.step c with
    | .ok (.more r) => isEntityValue (some r) rest
    | .ok _ => isEntityValue none rest
    | .error _ => false

/-- Declares an entity, given the tokens behind its name.  An entity that is
`known` may be declared, if the declaration has the right form. -/
def declareEntity (d : Doctype) (known isParameter : Bool) (ts : List Token) :
    Except Failure Doctype :=
  -- a declaration is refused as soon as its value is read
  let declared (isClosed : Bool) : Except Failure Doctype :=
    if !known then .error .entityDeclared else if isClosed then .ok d else .error .malformed
  let located (rest : List Token) : Except Failure Doctype :=
    match rest with
    | [.close] => declared true
    | .name "NDATA" none :: .name _ none :: rest =>
      if isParameter then .error .malformed else declared (rest = [.close])
    | _ => .error .malformed
  match ts with
  | .literal _ cs :: rest => declared (rest = [.close] && (d.isSkipping || isEntityValue none cs))
  | .name "SYSTEM" none :: .literal _ _ :: rest => located rest
  | .name "PUBLIC" none :: .literal _ cs :: .literal _ _ :: rest =>
    if cs.all isPublicChar then located rest else .error .malformed
  | _ => .error .malformed

/-! ### Declarations -/

/-- Checks the form of a declaration. -/
def checked (d : Doctype) (ok : Bool) : Except Failure Doctype :=
  if ok then .ok d else .error .malformed

/-- Reads a declaration, given its keyword and its tokens. -/
def declare (d : Doctype) (kind : String) (ts : List Token) : Except Failure Doctype :=
  match kind, ts with
  | "ELEMENT", ts => d.checked (isElement ts)
  | "NOTATION", ts => d.checked (isNotation ts)
  | "ATTLIST", ts => d.declareAttributes ts
  | "ENTITY", .percent :: .name _ none :: rest => d.declareEntity d.isSkipping true rest
  | "ENTITY", .name s none :: rest =>
    d.declareEntity (d.isSkipping || (predefined.lookup s).isSome) false rest
  | _, _ => .error .malformed

end DefinitionTree.Xml.Doctype
