/-
DefinitionTree/Proofs/Xml/Declaring.lean

How reading what stands before the outermost element fails.

A document type may hold declarations between brackets, and one of an entity is
refused as soon as the value of the entity is read.  That is so only while
declarations are read at all, and it is not so for the five entities of markup.
Every other failure is that of a text that is not well-formed.

Main definitions:

* `Doctype.HasValue`: the tokens that give an entity a value;
* `Doctype.DeclaresIn`: declarations of entities, with a rule for each construct that
  may stand between the brackets;
* `DeclaresEntity`: the same of a whole text.

Main statements:

* `Doctype.declare_entityDeclared_iff`: one declaration;
* `Doctype.cases_of_subset_eq_error`, `Doctype.subset_of_declaresIn`: all of them;
* `cases_of_prolog_eq_error`, `prolog_of_declaresEntity`: a whole text.
-/
import DefinitionTree.Proofs.Xml.Failing

namespace DefinitionTree.Xml

namespace Doctype

variable {d : Doctype} {ts rest : List Token} {cs : List Char} {f : Failure}

/-! ### One declaration of an entity -/

/-- What may stand behind the address of a value: the end, or for a general entity the
notation of the value, whatever follows. -/
def IsLocated (isParameter : Bool) (ts : List Token) : Prop :=
  ts = [.close] ∨
    isParameter = false ∧ ∃ s rest, ts = .name "NDATA" none :: .name s none :: rest

/-- The tokens behind the name of an entity give it a value. -/
inductive HasValue (isParameter : Bool) : List Token → Prop
  | literal (mark : Char) (cs : List Char) (rest : List Token) :
    HasValue isParameter (.literal mark cs :: rest)
  | system (mark : Char) (cs : List Char) {rest : List Token} : IsLocated isParameter rest →
    HasValue isParameter (.name "SYSTEM" none :: .literal mark cs :: rest)
  | public_ (mark : Char) {cs : List Char} (mark' : Char) (cs' : List Char) {rest : List Token} :
    cs.all isPublicChar = true → IsLocated isParameter rest →
    HasValue isParameter (.name "PUBLIC" none :: .literal mark cs :: .literal mark' cs' :: rest)

/-- The tokens behind the keyword give a value to an entity that markup does not know. -/
inductive GivesValue : List Token → Prop
  | parameter (s : String) {rest : List Token} : HasValue true rest →
    GivesValue (.percent :: .name s none :: rest)
  | general {s : String} {rest : List Token} : predefined.lookup s = none → HasValue false rest →
    GivesValue (.name s none :: rest)

/-- Whether a declaration is refused once the value is read. -/
theorem declared_cases {known : Bool} {ends : Prop} [Decidable ends]
    (h : (if !known then .error .entityDeclared else if ends then .ok d else .error .malformed)
      = (.error f : Except Failure Doctype)) :
    f = .malformed ∨ f = .entityDeclared ∧ known = false := by
  cases known with
  | false => exact .inr ⟨(Except.error.inj h).symm, rfl⟩
  | true => exact .inl (OnlyMalformed.ite (.ok _) .malformed f h)

/-- Whether a declaration is refused whose value stands elsewhere. -/
theorem located_cases {known isParameter : Bool}
    (h : (match rest with
      | [.close] =>
        if !known then .error .entityDeclared else if true then .ok d else .error .malformed
      | .name "NDATA" none :: .name _ none :: rest =>
        if isParameter then .error .malformed
        else if !known then .error .entityDeclared
        else if rest = [.close] then .ok d else .error .malformed
      | _ => .error .malformed) = (.error f : Except Failure Doctype)) :
    f = .malformed ∨ f = .entityDeclared ∧ known = false ∧ IsLocated isParameter rest := by
  split at h
  · exact (declared_cases h).imp id fun ⟨refused, unknown⟩ => ⟨refused, unknown, .inl rfl⟩
  · split at h
    · exact .inl (Except.error.inj h).symm
    · rename_i general
      exact (declared_cases h).imp id fun ⟨refused, unknown⟩ =>
        ⟨refused, unknown, .inr ⟨by simpa using general, _, _, rfl⟩⟩
  · exact .inl (Except.error.inj h).symm

/-- The declaration of an entity is refused if it gives the entity a value. -/
theorem cases_of_declareEntity_eq_error {known isParameter : Bool}
    (h : d.declareEntity known isParameter ts = .error f) :
    f = .malformed ∨ f = .entityDeclared ∧ known = false ∧ HasValue isParameter ts := by
  unfold declareEntity at h
  simp only [decide_eq_true_eq] at h
  split at h
  · exact (declared_cases h).imp id fun ⟨refused, unknown⟩ => ⟨refused, unknown, .literal _ _ _⟩
  · exact (located_cases h).imp id fun ⟨refused, unknown, located⟩ =>
      ⟨refused, unknown, .system _ _ located⟩
  · split at h
    · rename_i isPublic
      exact (located_cases h).imp id fun ⟨refused, unknown, located⟩ =>
        ⟨refused, unknown, .public_ _ _ _ isPublic located⟩
    · exact .inl (Except.error.inj h).symm
  · exact .inl (Except.error.inj h).symm

theorem declareEntity_of_hasValue {isParameter : Bool} (h : HasValue isParameter ts) :
    d.declareEntity false isParameter ts = .error .entityDeclared := by
  cases h with
  | literal => rfl
  | system mark cs located =>
    rcases located with rfl | ⟨rfl, s, rest, rfl⟩
    · rfl
    · rfl
  | public_ mark mark' cs' isPublic located =>
    unfold declareEntity
    rcases located with rfl | ⟨rfl, s, rest, rfl⟩
    · exact if_pos isPublic
    · exact if_pos isPublic

/-! ### Declarations of attributes -/

theorem onlyMalformed_stepLiteral (d : Doctype) (r : TagReading) (c : Char) :
    OnlyMalformed (d.stepLiteral r c) := by
  cases r with
  | more p => exact p.onlyMalformed_step d.isHidden c
  | opened tag => exact .malformed
  | empty tag => exact .malformed

theorem onlyMalformed_literalValue (d : Doctype) (mark : Char) (cs : List Char) :
    OnlyMalformed (d.literalValue mark cs) := by
  refine .ite (.ok _) (.bind ?_ fun read => ?_)
  · intro f failed
    obtain ⟨_, c, _, reached, -, -, failed⟩ := foldlM_eq_error_iff.mp failed
    exact d.onlyMalformed_stepLiteral reached c f failed
  · split
    · exact .ok _
    · exact .malformed

theorem onlyMalformed_attributeRules (d : Doctype) (element : String) (p : RulePlace)
    (ts : List Token) : OnlyMalformed (d.attributeRules element p ts) := by
  fun_induction attributeRules d element p ts with
  | case1 => exact .ok _
  | _ =>
    first
    | assumption
    | exact .malformed
    | exact .bind ‹_› fun _ => .ok _
    | exact .bind (onlyMalformed_literalValue _ _ _) fun _ => .bind ‹_› fun _ => .ok _

theorem onlyMalformed_declareAttributes (d : Doctype) (ts : List Token) :
    OnlyMalformed (d.declareAttributes ts) := by
  unfold declareAttributes
  split
  · exact .bind (onlyMalformed_attributeRules _ _ _ _) fun _ => .ok _
  · exact .malformed

/-! ### Declarations -/

/-- A declaration is refused if it is one of an entity that gives it a value, while
declarations are read. -/
theorem cases_of_declare_eq_error {kind : String} (h : d.declare kind ts = .error f) :
    f = .malformed ∨
      f = .entityDeclared ∧ kind = "ENTITY" ∧ d.isSkipping = false ∧ GivesValue ts := by
  unfold declare at h
  split at h
  · exact .inl (OnlyMalformed.ite (.ok _) .malformed f h)
  · exact .inl (OnlyMalformed.ite (.ok _) .malformed f h)
  · exact .inl (onlyMalformed_declareAttributes d _ f h)
  · exact (cases_of_declareEntity_eq_error h).imp id fun ⟨refused, read, value⟩ =>
      ⟨refused, rfl, read, .parameter _ value⟩
  · refine (cases_of_declareEntity_eq_error h).imp id fun ⟨refused, read, value⟩ => ?_
    rw [Bool.or_eq_false_iff, Option.isSome_eq_false_iff, Option.isNone_iff_eq_none] at read
    exact ⟨refused, rfl, read.1, .general read.2 value⟩
  · exact .inl (Except.error.inj h).symm

theorem declare_of_givesValue (read : d.isSkipping = false) (h : GivesValue ts) :
    d.declare "ENTITY" ts = .error .entityDeclared := by
  cases h with
  | parameter s value =>
    show d.declareEntity d.isSkipping true _ = _
    rw [read, declareEntity_of_hasValue value]
  | @general s rest unknown value =>
    show d.declareEntity (d.isSkipping || (predefined.lookup s).isSome) false _ = _
    rw [read, unknown]
    exact declareEntity_of_hasValue value

/-! ### Between the brackets -/

/-- From here on, between the brackets of a document type, an entity is declared that
must not be: the construct that comes next declares it, or leads to where one does. -/
inductive DeclaresIn : Doctype → List Char → Prop
  | here {d : Doctype} {cs after : List Char} : keyword? cs = some ("ENTITY", after) →
    d.isSkipping = false → GivesValue (tokens after).1 → DeclaresIn d cs
  | declaration {d next : Doctype} {cs after : List Char} {kind : String} :
    keyword? cs = some (kind, after) → d.declare kind (tokens after).1 = .ok next →
    DeclaresIn next (tokens after).2 → DeclaresIn d cs
  | aside {d : Doctype} {cs more after : List Char} {a : Aside} :
    Aside.start? cs = some (a, more) → a.skip more = .ok after → DeclaresIn d after →
    DeclaresIn d cs
  | parameter {d : Doctype} {rest : List Char} {n : Nat} :
    Token.nextPercent rest = (.parameter, n) → DeclaresIn d.refer (rest.drop n) →
    DeclaresIn d ('%' :: rest)
  | space {d : Doctype} {c : Char} {rest : List Char} : isSpace c = true → DeclaresIn d rest →
    DeclaresIn d (c :: rest)

/-- Reading the declarations fails so if an entity is declared, and otherwise because
the text is not well-formed. -/
theorem cases_of_subset_eq_error (h : d.subset cs = .error f) :
    f = .malformed ∨ f = .entityDeclared ∧ d.DeclaresIn cs := by
  fun_induction subset d cs with
  | case2 d c rest space ih => exact (ih h).imp id (And.imp id (.space space))
  | case3 => cases h
  | case5 d rest n found _ _ ih => exact (ih h).imp id (And.imp id (.parameter found))
  | case7 d c rest _ _ _ a more start after skipped ih =>
    exact (ih h).imp id (And.imp id (.aside start skipped))
  | case8 d c rest _ _ _ a more start fault skipped =>
    cases h
    exact .inl (a.onlyMalformed_skip more f skipped)
  | case9 d c rest _ _ _ kind after _ keyword next declared ih =>
    exact (ih h).imp id (And.imp id (.declaration keyword declared))
  | case10 d c rest _ _ _ kind after _ keyword fault declared =>
    cases h
    refine (cases_of_declare_eq_error declared).imp id ?_
    rintro ⟨refused, rfl, read, value⟩
    exact ⟨refused, .here keyword read value⟩
  | _ => exact .inl (Except.error.inj h).symm

/-- A declaration starts like no comment and no instruction. -/
theorem start_of_keyword? {kind : String} {after : List Char}
    (h : keyword? cs = some (kind, after)) :
    ∃ more, cs = '<' :: more ∧ Aside.start? cs = none := by
  unfold keyword? at h
  split at h
  · rename_i more
    refine ⟨_, rfl, ?_⟩
    unfold Aside.start?
    split
    · rename_i eq
      cases eq
    · rename_i rest eq
      obtain rfl : more = '-' :: '-' :: rest := by simpa using eq
      cases h
    · rfl
  · cases h

theorem start_of_start? {a : Aside} {more : List Char} (h : Aside.start? cs = some (a, more)) :
    ∃ rest, cs = '<' :: rest := by
  unfold Aside.start? at h
  split at h
  · exact ⟨_, rfl⟩
  · exact ⟨_, rfl⟩
  · cases h

theorem subset_declaration {kind : String} {after : List Char}
    (h : keyword? cs = some (kind, after)) :
    d.subset cs = d.declare kind (tokens after).1 >>= fun d => d.subset (tokens after).2 := by
  obtain ⟨more, rfl, noStart⟩ := start_of_keyword? h
  rw [subset, if_neg (by decide), if_neg (by decide), if_neg (by decide)]
  split
  · rename_i start
    cases noStart.symm.trans start
  · rename_i keyword
    cases h.symm.trans keyword
    cases d.declare kind (tokens after).1 <;> rfl
  · rename_i none
    cases h.symm.trans none

theorem subset_aside {a : Aside} {more : List Char} (h : Aside.start? cs = some (a, more)) :
    d.subset cs = a.skip more >>= d.subset := by
  obtain ⟨rest, rfl⟩ := start_of_start? h
  rw [subset, if_neg (by decide), if_neg (by decide), if_neg (by decide)]
  split
  · rename_i start
    cases h.symm.trans start
    split
    · rename_i skipped
      rw [skipped]
      rfl
    · rename_i skipped
      rw [skipped]
      rfl
  · rename_i noStart _
    cases h.symm.trans noStart
  · rename_i noStart _
    cases h.symm.trans noStart

theorem subset_parameter {rest : List Char} {n : Nat}
    (h : Token.nextPercent rest = (.parameter, n)) :
    d.subset ('%' :: rest) = d.refer.subset (rest.drop n) := by
  rw [subset, if_neg (by decide), if_neg (by decide), if_pos rfl, h]

theorem subset_space {c : Char} {rest : List Char} (h : isSpace c = true) :
    d.subset (c :: rest) = d.subset rest := by
  rw [subset, if_pos h]

/-- Where an entity is declared, reading the declarations fails. -/
theorem subset_of_declaresIn (h : d.DeclaresIn cs) : d.subset cs = .error .entityDeclared := by
  induction h with
  | here keyword read value =>
    rw [subset_declaration keyword, declare_of_givesValue read value]
    rfl
  | declaration keyword declared _ ih =>
    rw [subset_declaration keyword, declared]
    exact ih
  | aside start skipped _ ih =>
    rw [subset_aside start, skipped]
    exact ih
  | parameter found _ ih => rw [subset_parameter found, ih]
  | space space _ ih => rw [subset_space space, ih]

/-! ### The document type -/

/-- The document type, given behind its keyword, has declarations between brackets: what
is known by then, and what stands from the first of them on. -/
inductive Opens (d : Doctype) (cs : List Char) : Doctype → List Char → Prop
  | here {s : String} {rest : List Char} : tokens cs = ([.name s none, .openBracket], rest) →
    Opens d cs d rest
  | system {s : String} {mark : Char} {address rest : List Char} :
    tokens cs = ([.name s none, .name "SYSTEM" none, .literal mark address, .openBracket], rest) →
    Opens d cs { d with isExtended := true } rest
  | public_ {s : String} {mark mark' : Char} {name address rest : List Char} :
    tokens cs = ([.name s none, .name "PUBLIC" none, .literal mark name, .literal mark' address,
      .openBracket], rest) → name.all isPublicChar = true →
    Opens d cs { d with isExtended := true } rest

theorem read_of_opens {next : Doctype} {rest : List Char} (h : d.Opens cs next rest) :
    d.read cs = next.subset rest := by
  cases h with
  | here ts =>
    rw [read, ts]
    rfl
  | system ts =>
    rw [read, ts]
    rfl
  | public_ ts isPublic =>
    rw [read, ts]
    exact if_pos isPublic

/-- Reading a document type fails as its declarations do. -/
theorem cases_of_read_eq_error (h : d.read cs = .error f) :
    f = .malformed ∨ f = .entityDeclared ∧ ∃ next rest, d.Opens cs next rest ∧
      next.DeclaresIn rest := by
  -- declarations follow an opening bracket only; what is refused is refused there
  have bracket {next : Doctype} {t : Token} {rest : List Char}
      (failed : (if t = .close then .ok (next, rest) else if t = .openBracket then
        next.subset rest else .error .malformed) = (.error f : Except Failure _)) :
      f = .malformed ∨ f = .entityDeclared ∧ t = .openBracket ∧ next.DeclaresIn rest := by
    split at failed
    · cases failed
    split at failed
    · rename_i opened
      exact (cases_of_subset_eq_error failed).imp id fun ⟨refused, declares⟩ =>
        ⟨refused, opened, declares⟩
    · exact .inl (Except.error.inj failed).symm
  rcases ts : tokens cs with ⟨found, rest⟩
  rw [read, ts] at h
  simp only at h
  split at h
  · refine (bracket h).imp id ?_
    rintro ⟨refused, rfl, declares⟩
    exact ⟨refused, _, _, .here ts, declares⟩
  · refine (bracket h).imp id ?_
    rintro ⟨refused, rfl, declares⟩
    exact ⟨refused, _, _, .system ts, declares⟩
  · split at h
    · rename_i isPublic
      refine (bracket h).imp id ?_
      rintro ⟨refused, rfl, declares⟩
      exact ⟨refused, _, _, .public_ ts isPublic, declares⟩
    · exact .inl (Except.error.inj h).symm
  · exact .inl (Except.error.inj h).symm

end Doctype

/-! ### Everything before the outermost element -/

theorem onlyMalformed_documentStart (cs : List Char) : OnlyMalformed (documentStart cs) := by
  unfold documentStart
  split
  · exact .ok _
  · refine .ite (.ok _) ?_
    split
    · exact .ok _
    · exact .malformed

theorem onlyMalformed_skipAsides (cs : List Char) : OnlyMalformed (skipAsides cs) := by
  fun_induction skipAsides cs with
  | case2 c rest space ih => exact ih
  | case3 c rest _ a more _ after _ ih => exact ih
  | case4 c rest _ a more start fault skipped =>
    rw [← skipped]
    exact a.onlyMalformed_skip more
  | _ => exact .ok _

/-- The document type of the text declares an entity that must not be declared. -/
def DeclaresEntity (cs : List Char) : Prop :=
  ∃ d rest more after next inner, documentStart cs = .ok (d, rest) ∧
    skipAsides rest = .ok more ∧ Doctype.keyword? more = some ("DOCTYPE", after) ∧
    d.Opens after next inner ∧ next.DeclaresIn inner

variable {cs : List Char} {f : Failure}

/-- **Before the outermost element** reading fails because an entity is declared or
because the text is not well-formed. -/
theorem cases_of_prolog_eq_error (h : prolog cs = .error f) :
    f = .malformed ∨ f = .entityDeclared ∧ DeclaresEntity cs := by
  rcases bind_eq_error_iff.mp h with failed | ⟨⟨d, rest⟩, start, h⟩
  · exact .inl (onlyMalformed_documentStart cs f failed)
  rcases bind_eq_error_iff.mp h with failed | ⟨more, skipped, h⟩
  · exact .inl (onlyMalformed_skipAsides rest f failed)
  split at h
  · rename_i after keyword
    rcases bind_eq_error_iff.mp h with failed | ⟨⟨next, behind⟩, -, h⟩
    · refine (Doctype.cases_of_read_eq_error failed).imp id ?_
      rintro ⟨refused, next, inner, opens, declares⟩
      exact ⟨refused, d, rest, more, after, next, inner, start, skipped, keyword, opens, declares⟩
    · exact .inl ((onlyMalformed_skipAsides behind).bind (fun _ => .ok _) f h)
  · cases h

theorem prolog_of_declaresEntity (h : DeclaresEntity cs) : prolog cs = .error .entityDeclared := by
  obtain ⟨d, rest, more, after, next, inner, start, skipped, keyword, opens, declares⟩ := h
  have read := (Doctype.read_of_opens opens).trans (Doctype.subset_of_declaresIn declares)
  simp only [prolog, bind, Except.bind, start, skipped, keyword, read]

end DefinitionTree.Xml
