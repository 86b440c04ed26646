/-
DefinitionTree/Proofs/Definition/Unreadable.lean

Definitions that are refused.

The hook keeps a definition that is unreadable: its text is not well-formed, or its
root holds text.  Two more things make reading fail, and with them the hook.  The
document type declares an entity, or an element is an integer with too many digits.

Main definitions:

* `Xml.HoldsOverlong`: an element of the text is too long an integer;
* `Xml.IsRefused`: reading the text fails in one of the two ways.

Main statements:

* `Xml.cases_of_definition_eq_error`, `Xml.definition_of_isRefused`: how reading fails;
* `Hooks.exists_fetched`: what the hook makes of an instance;
* `Hooks.onFetch_unreadable`: which definitions the hook keeps.
-/
import DefinitionTree.Proofs.Definition.Rerun
import DefinitionTree.Proofs.Xml.Declaring

namespace DefinitionTree

/-! ### Reading a definition -/

namespace Xml

variable {s : String} {f : Failure}

/-- The characters of a text as a document is read from them. -/
def characters (s : String) : List Char :=
  unifyLineBreaks (dropByteOrderMark (replaceEntities s).toList)

/-- An element of the document is an integer with too many digits, and everything in
front of its end can be read. -/
def HoldsOverlong (cs : List Char) : Prop :=
  ∃ d rest, prolog cs = .ok (d, rest) ∧ Reading.MeetsOverlong d {} rest

/-- The text is refused, though it may be well-formed: it declares an entity, or holds
an integer with too many digits. -/
def IsRefused (s : String) : Prop :=
  DeclaresEntity (characters s) ∨ HoldsOverlong (characters s)

/-- Reading a document fails because the text is not well-formed or is refused. -/
theorem cases_of_document_eq_error (h : document s = .error f) :
    f = .malformed ∨ f.isUnreadable = false ∧ IsRefused s := by
  rcases bind_eq_error_iff.mp h with failed | ⟨⟨d, rest⟩, start, h⟩
  · refine (cases_of_prolog_eq_error failed).imp id ?_
    rintro ⟨rfl, declares⟩
    exact ⟨rfl, .inl declares⟩
  rcases bind_eq_error_iff.mp h with failed | ⟨reading, -, h⟩
  · refine (Reading.cases_of_steps_eq_error failed).imp id ?_
    rintro ⟨⟨n, rfl⟩, meets⟩
    exact ⟨rfl, .inr ⟨d, rest, start, meets⟩⟩
  · exact .inl (reading.onlyMalformed_finish f h)

/-- Reading a definition fails because the text is not well-formed or is refused, or
because the root holds text. -/
theorem cases_of_definition_eq_error (h : definition s = .error f) :
    f.isUnreadable = true ∨ f.isUnreadable = false ∧ IsRefused s := by
  rcases bind_eq_error_iff.mp h with failed | ⟨es, -, h⟩
  · refine (cases_of_document_eq_error failed).imp ?_ id
    rintro rfl
    rfl
  · split at h
    · cases h
    · cases h
    · cases h
    · cases h
      exact .inl rfl

/-- A failure can be decided without comparing what is read. -/
theorem definition_eq_error_of_map (h : (definition s).map (fun _ => ()) = .error f) :
    definition s = .error f := by
  rcases read : definition s with fault | es
  · rw [read] at h
    cases h
    rfl
  · rw [read] at h
    cases h

/-- What is refused is no unreadable definition. -/
theorem definition_of_isRefused (h : IsRefused s) :
    ∃ f, definition s = .error f ∧ f.isUnreadable = false := by
  have failed {f : Failure} (failed : document s = .error f) : definition s = .error f := by
    rw [definition, failed]
    rfl
  rcases h with declares | ⟨d, rest, start, meets⟩
  · refine ⟨.entityDeclared, failed ?_, rfl⟩
    show (prolog (characters s) >>= _) = _
    rw [prolog_of_declaresEntity declares]
    rfl
  · obtain ⟨n, tooLong⟩ := Reading.steps_of_meetsOverlong meets
    refine ⟨.integerTooLong n, failed ?_, rfl⟩
    show (prolog (characters s) >>= _) = _
    rw [start]
    show (rest.foldlM (Reading.step d) {} >>= _) = _
    rw [tooLong]
    rfl

/-- A text gives a definition, or is an unreadable one, unless it is refused. -/
theorem definition_unreadable_iff (s : String) :
    ((∃ es, definition s = .ok es) ∨ ∃ f, definition s = .error f ∧ f.isUnreadable = true) ↔
      ¬IsRefused s := by
  constructor
  · intro either refused
    obtain ⟨f, failed, other⟩ := definition_of_isRefused refused
    rcases either with ⟨es, read⟩ | ⟨f', failed', unreadable⟩
    · cases failed.symm.trans read
    · cases failed.symm.trans failed'
      cases other.symm.trans unreadable
  · intro accepted
    rcases read : definition s with f | es
    · refine .inr ⟨f, rfl, ?_⟩
      exact (cases_of_definition_eq_error read).resolve_right fun ⟨_, refused⟩ => accepted refused
    · exact .inl ⟨es, rfl⟩

end Xml

/-! ### The hook -/

namespace Hooks

variable {h : Hooks} {kind : Kind} {es : List Element} {i : Instance} {s : String} {f : Failure}

/-- An instance whose definition cannot be read is kept if that is all, and else fails. -/
theorem outcome_fetched_of_unread (h : Hooks) (kind : Kind) (lookup : Lookup)
    (text : definitionText? i.value = some s) (unread : Xml.definition s = .error f) :
    (h.fetched kind lookup i).outcome = if f.isUnreadable then .ok i else .error f := by
  refine outcome_fetched_of_error ?_
  rw [outcome_fetchInstance_some h kind lookup text, canonicalDefinition, Journal.outcome_bind,
    Journal.outcome_of, unread]
  rfl

/-- Among the elements after the hook is one for each instance before it. -/
theorem exists_fetched (done : (h.onFetch es).2.outcome = .ok ()) (mem : i ∈ instances kind es) :
    ∃ lookup j, (h.fetched kind lookup i).outcome = .ok j ∧
      Element.instance j ∈ (h.onFetch es).1 := by
  obtain ⟨gs, first, second⟩ := onFetch_eq_ok_iff.mp ⟨done, rfl⟩
  obtain ⟨ws, workbooks, rfl⟩ := fetchKind_eq_ok_iff.mp first
  obtain ⟨ds, datasets, eq⟩ := fetchKind_eq_ok_iff.mp second
  have allOf := allOf_fetched (allOf_instances .workbook es) workbooks
  have apart : Kind.dataset ≠ .workbook := by decide
  rw [others_append, others_instances allOf apart] at eq
  rw [instances_fetched apart allOf] at datasets
  rw [eq]
  cases kind with
  | workbook =>
    obtain ⟨j, there, fetched⟩ := exists_of_forall₂ workbooks.flip mem
    exact ⟨_, j, fetched, by simp [there]⟩
  | dataset =>
    obtain ⟨j, there, fetched⟩ := exists_of_forall₂ datasets.flip mem
    exact ⟨_, j, fetched, by simp [there]⟩

/-- **Which definitions the hook keeps.**  Every text gives a definition or is unreadable,
unless it is refused.  An instance with a refused definition makes the hook fail.  One
with any other definition that cannot be read is kept as it is, and is among the
elements when the hook is done. -/
theorem onFetch_unreadable (s : String) :
    (((∃ es, Xml.definition s = .ok es) ∨
        ∃ f, Xml.definition s = .error f ∧ f.isUnreadable = true) ↔ ¬Xml.IsRefused s) ∧
    ∀ (h : Hooks) (es : List Element) (kind : Kind), ∀ i ∈ instances kind es,
      definitionText? i.value = some s → ∀ f, Xml.definition s = .error f →
        (Xml.IsRefused s → ∃ e, (h.onFetch es).2.outcome = .error e) ∧
        (¬Xml.IsRefused s → (∀ lookup, (h.fetched kind lookup i).outcome = .ok i) ∧
          ((h.onFetch es).2.outcome = .ok () → Element.instance i ∈ (h.onFetch es).1)) := by
  refine ⟨Xml.definition_unreadable_iff s, fun h es kind i mem text f unread => ⟨?_, ?_⟩⟩
  · intro refused
    obtain ⟨f', failed, other⟩ := Xml.definition_of_isRefused refused
    rcases done : (h.onFetch es).2.outcome with e | _
    · exact ⟨e, rfl⟩
    · obtain ⟨lookup, j, fetched, -⟩ := exists_fetched done mem
      rw [outcome_fetched_of_unread h kind lookup text failed, other] at fetched
      cases fetched
  · intro accepted
    have unreadable : f.isUnreadable = true :=
      (Xml.cases_of_definition_eq_error unread).resolve_right fun ⟨_, refused⟩ => accepted refused
    have kept (lookup : Lookup) : (h.fetched kind lookup i).outcome = .ok i := by
      rw [outcome_fetched_of_unread h kind lookup text unread, unreadable]
      rfl
    refine ⟨kept, fun done => ?_⟩
    obtain ⟨lookup, j, fetched, there⟩ := exists_fetched done mem
    cases (kept lookup).symm.trans fetched
    exact there

/-- A definition that is no document is kept. -/
theorem onFetch_openRoot :
    let i := datasetOf [(definitionKey, .text "<root>")]
    ¬Xml.IsRefused "<root>" ∧ ∀ lookup, (fetched {} .dataset lookup i).outcome = .ok i := by
  have read : Xml.definition "<root>" = .error .malformed :=
    Xml.definition_eq_error_of_map (by decide +kernel)
  obtain ⟨accepted, hooks⟩ := onFetch_unreadable "<root>"
  have none : ¬Xml.IsRefused "<root>" := accepted.mp (.inr ⟨_, read, rfl⟩)
  exact ⟨none, ((hooks {} [.instance (datasetOf [(definitionKey, .text "<root>")])] .dataset _
    List.mem_cons_self rfl _ read).2 none).1⟩

/-- The text of a document that declares an entity, which it does not use. -/
def entityDefinition : String := "<!DOCTYPE root [<!ENTITY x \"y\">]><root><a>1</a></root>"

/-- A dataset whose definition is `entityDefinition` makes the hook fail. -/
theorem onFetch_entityDefinition :
    Xml.definition entityDefinition = .error .entityDeclared ∧
      Failure.isUnreadable .entityDeclared = false ∧
      ∃ e, (onFetch {} [.instance (datasetOf [(definitionKey, .text entityDefinition)])]).2.outcome
        = .error e := by
  have read : Xml.definition entityDefinition = .error .entityDeclared :=
    Xml.definition_eq_error_of_map (by decide +kernel)
  refine ⟨read, rfl, ?_⟩
  have listed : datasetOf [(definitionKey, .text entityDefinition)] ∈ instances .dataset
      [.instance (datasetOf [(definitionKey, .text entityDefinition)])] := List.mem_cons_self
  rcases done : (onFetch {} [.instance (datasetOf [(definitionKey,
    .text entityDefinition)])]).2.outcome with e | _
  · exact ⟨e, rfl⟩
  · obtain ⟨lookup, j, fetched, -⟩ := exists_fetched done listed
    rw [outcome_fetched_of_unread {} .dataset lookup rfl read] at fetched
    cases fetched

end Hooks

end DefinitionTree
